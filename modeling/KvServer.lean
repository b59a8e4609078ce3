import KvServer.Dispatch.Run
import KvServer.Expiry.Run
import KvServer.Main
import KvServer.Proofs.Expiry.Coherence
import KvServer.Proofs.Expiry.Settling
import KvServer.Proofs.Expiry.Supersession
import KvServer.Proofs.Dispatch.TtlMap
import KvServer.Proofs.Dispatch.Execution
import KvServer.Proofs.Dispatch.TtlRefinement
import KvServer.Proofs.Dispatch.Effect
import KvServer.Proofs.Dispatch.Grant
import KvServer.Proofs.Session.Enrollment
import KvServer.Proofs.Session.Lines
import KvServer.Proofs.Session.Progress
import KvServer.Proofs.Session.Script
import KvServer.Proofs.Session.Rest
import KvServer.Proofs.Session.Serving
import KvServer.Proofs.Session.Refinement
import KvServer.Proofs.Text.Utf8
import KvServer.Proofs.Text.Runs
import KvServer.Proofs.Number.Numeral
import KvServer.Proofs.Command.Grammar
import KvServer.Proofs.Reply.Line
import KvServer.Proofs.Dispatch.Replies
import KvServer.Proofs.Dispatch.Bisimulation
import KvServer.Proofs.Dispatch.Isolation
import KvServer.Proofs.Session.Frames
import KvServer.Proofs.Session.Reading
import KvServer.Proofs.Command.Rendering
import KvServer.Proofs.Dispatch.MarkExpiry
import KvServer.Proofs.Session.Course
import KvServer.Proofs.Session.Conservation
import KvServer.Proofs.Session.Membership
import KvServer.Proofs.Session.Revocation
import KvServer.Proofs.Expiry.Shutdown
import KvServer.Proofs.Store.Encoding
import KvServer.Proofs.Dispatch.Engines
import KvServer.Proofs.Session.Endings
import KvServer.Proofs.Session.Shutdown
import KvServer.Proofs.Session.Closing
import KvServer.Proofs.Server.Serve
import KvServer.Proofs.Session.Answering
import KvServer.Proofs.Settings.Limits
import KvServer.Proofs.Dispatch.Decision
import KvServer.Proofs.Store.Keyed
import KvServer.Proofs.Dispatch.Failure
import KvServer.Proofs.Session.Headcount
import KvServer.Proofs.Store.Removal
import KvServer.Proofs.Expiry.FiringOrder
import KvServer.Proofs.Expiry.Handles
import KvServer.Proofs.Dispatch.Survival
import KvServer.Proofs.Dispatch.Rejection
import KvServer.Proofs.Dispatch.Presentation
import KvServer.Proofs.Store.Decoding
import KvServer.Proofs.Dispatch.Repair
import KvServer.Proofs.Settings.Layers
import KvServer.Proofs.Settings.Shadowing
import KvServer.Proofs.Settings.Loading
import KvServer.Proofs.Settings.Overriding
import KvServer.Proofs.Dispatch.Written
import KvServer.Proofs.Session.Disconnection
