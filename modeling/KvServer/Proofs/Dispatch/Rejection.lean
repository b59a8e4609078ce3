import KvServer.Proofs.Dispatch.Failure
import KvServer.Proofs.Dispatch.MarkExpiry
import KvServer.Proofs.Store.Removal

/-!
# A rejected `AUTH`

An `AUTH` with a wrong candidate is rejected and changes nothing at all, so it takes no mark away.
Whether the client is let in afterwards was decided before: a client without the mark stays shut out
until an `AUTH` of it, or a write to its key, is answered `OK`; a client with the mark is let in as
if nothing had happened (`rejected_auth_decides_nothing`).
-/

namespace KvServer

open Text TimedStore

namespace Recorded

variable {σ : Type} [Store σ] {r : Recorded σ} {key value : String}

/-- A look-up finds what is in the store, unless it meets a fault. -/
theorem call_get_eq_ok_iff :
    (Store.call (.get key) r).1 = .ok value ↔
      r.faults .get = none ∧ Store.lookUp key r.store = .ok value := by
  cases hfault : r.faults (Call.get key).kind with
  | some e =>
      have hsome : r.faults .get = some e := hfault
      rw [call_of_fault hfault, hsome]
      simp
  | none =>
      have hnone : r.faults .get = none := hfault
      rw [call_of_no_fault hfault, hnone]
      simp [Store.lookUp]

end Recorded

namespace Dispatch

section

variable {σ : Type} [Store σ] {s : TimedStore (Recorded σ)} {secret client candidate : String}
  {bytes : Bytes} {c : Command}

/-- The store has no mark of a client. -/
def ShutOut (secret client : String) (s : TimedStore (Recorded σ)) : Prop :=
  Store.lookUp client s.store.store ≠ .ok secret

/-- A client is let in exactly if it has the mark and the look-up of the mark meets no fault. -/
theorem execute_ne_invalidAuth_iff (hparse : Command.parse bytes = .ok c) (hc : c.NeedsMark) :
    (execute (some secret) client bytes s).1 ≠ .invalidAuth ↔
      s.store.faults .get = none ∧ ¬ ShutOut secret client s := by
  rw [execute_of_ok hparse, ne_eq, (run_eq_invalidAuth_iff hc secret client s).1, call_fst,
    not_not, Recorded.call_get_eq_ok_iff, ShutOut, not_not]

/-- A rejected `AUTH` does nothing. -/
theorem execute_of_rejected (hparse : Command.parse bytes = .ok (.auth candidate))
    (h : (execute (some secret) client bytes s).1 = .invalidAuth) :
    (execute (some secret) client bytes s).2 = s := by
  rw [execute_of_ok hparse, run, authenticate_some] at h ⊢
  split at h
  · exact absurd h (replyOf_ne_invalidAuth _)
  · rename_i hc
    rw [if_neg hc]

/-- No `GET` is answered `OK`, whatever value it finds. -/
theorem run_get_ne_ok {secret : Option String} {identity key : String} :
    (run secret identity (.get key) s).1 ≠ .ok := by
  cases secret with
  | none => exact get_ne_ok
  | some secret =>
      by_cases hmarked : (s.call (.get identity)).1 = .ok secret
      · rw [run, authorized_of_marked _ hmarked]
        exact get_ne_ok
      · rw [run, authorized_of_not_marked _ hmarked]
        simp

/-! ## What may let a client in -/

/-- A request about the key of a client is answered `OK`, which is an `AUTH` of the client or a
write to its key, or a call on the key comes from outside. -/
def MayAdmit (secret client : String) (st : Step) (s : TimedStore (Recorded σ)) : Prop :=
  match st with
  | .frame identity bytes =>
      (execute (some secret) identity bytes s).1 = .ok ∧
        ∃ c, Command.parse bytes = .ok c ∧ c.subject identity = client
  | .direct c => c.key? = some client
  | .revoke _ | .advance _ | .signal _ | .fault .. => False

/-- Frames of other clients that do not write the key of a client do not admit it. -/
theorem not_mayAdmit_of_other {identity : String} (hne : identity ≠ client)
    (h : ∀ c, Command.parse bytes = .ok c → ¬ c.Decides client) :
    ¬ MayAdmit secret client (.frame identity bytes) s := by
  rintro ⟨hok, c, hparse, hsubject⟩
  have hdecides := h c hparse
  -- a request about the key is an `AUTH` of the client itself, a write or a look-up
  cases c with
  | auth candidate => exact hne hsubject
  | set key value ttl | del key => exact hdecides hsubject
  | get key =>
      rw [execute_of_ok hparse] at hok
      exact run_get_ne_ok hok

/-- No step of a run may admit a client. -/
def AdmitsNone (secret client : String) : List Step → TimedStore (Recorded σ) → Prop
  | [], _ => True
  | st :: sts, s =>
      ¬ MayAdmit secret client st s ∧ AdmitsNone secret client sts (step (some secret) st s).2

variable [KeyedStore σ] [ErasingStore σ]

theorem ShutOut.fire (h : ShutOut secret client s) (hs : s.Coherent) (token : Nat) :
    ShutOut secret client (s.fire token) := by
  obtain ⟨key, -, hfire⟩ | ⟨-, hfire⟩ := hs.fire_cases token
  · rw [hfire]
    exact Recorded.lookUp_delete_ne_ok h key
  · rw [hfire]
    exact h

/-- Timers that run out give no marks. -/
theorem ShutOut.settle (h : ShutOut secret client s) (hs : s.Coherent) :
    ShutOut secret client s.settle := by
  refine hs.settle_induction (P := fun s ↦ ShutOut secret client s) h h ?_
  exact fun s token hs h ↦ h.fire hs token

omit [ErasingStore σ] in
theorem ShutOut.execute (h : ShutOut secret client s) (hs : s.Coherent) {identity : String}
    (hframe : ¬ MayAdmit secret client (.frame identity bytes) s) :
    ShutOut secret client (execute (some secret) identity bytes s).2 := by
  by_cases hok : (Dispatch.execute (some secret) identity bytes s).1 = .ok
  · obtain ⟨c, hparse, hsame⟩ := sameAt_execute hs hok
    have hother : client ≠ c.subject identity := fun hc ↦ hframe ⟨hok, c, hparse, hc.symm⟩
    rw [ShutOut, (hsame client hother).lookUp]
    exact h
  · have hforget := congrArg (fun s ↦ Store.lookUp client s.store.store) (forget_execute hok)
    rw [ShutOut]
    exact hforget ▸ h

theorem ShutOut.step {st : Step} (h : ShutOut secret client s) (hs : s.Settled)
    (hst : ¬ MayAdmit secret client st s) : ShutOut secret client (step (some secret) st s).2 := by
  cases st with
  | frame identity bytes =>
      exact (h.execute hs.coherent hst).settle (coherent_execute bytes hs.coherent)
  | revoke identity => exact Recorded.lookUp_delete_ne_ok h identity
  | advance ms => exact ShutOut.settle (s := { s with now := s.now + ms }) h (hs.coherent.setNow _)
  | signal sig =>
      exact ShutOut.settle (s := { s with channel := s.channel.after sig }) h
        (hs.coherent.setChannel _)
  | fault kind error? => exact h
  | direct c =>
      have hlookUp : Store.lookUp client (Store.call c s.store.store).2 =
          Store.lookUp client s.store.store := KeyedStore.lookUp_of_ne s.store.store hst
      exact fun hmarked ↦ h (hlookUp ▸ hmarked)

theorem ShutOut.runSteps {sts : List Step} (h : ShutOut secret client s) (hs : s.Settled)
    (hsts : AdmitsNone secret client sts s) :
    ShutOut secret client (runSteps (some secret) sts s).2 := by
  induction sts generalizing s with
  | nil => exact h
  | cons st sts ih =>
      exact ih (h.step hs hsts.1) (settled_step hs (some secret) st) hsts.2

end

/-- Take any state that a dispatcher with a secret reaches on either kind of store, and an `AUTH`
that is rejected there.  It leaves the state as it is.  If the client had no mark, every `SET`,
`GET` and `DEL` of the client is refused from then on, until an `AUTH` of the client or a write to
its key is answered `OK`.  If the client had the mark it is still let in, unless the look-up meets a
fault. -/
theorem rejected_auth_decides_nothing (secret : String) (store : Recorded AnyStore) (now : Nat)
    (channel : Channel) (past : List Step) (client candidate : String) (auth : Bytes) :
    let s := (runSteps (some secret) past { store, now, channel }).2
    let rejected := (step (some secret) (.frame client auth) s).2
    Command.parse auth = .ok (.auth candidate) →
    (execute (some secret) client auth s).1 = .invalidAuth →
    rejected = s ∧
    (ShutOut secret client s → ∀ later, AdmitsNone secret client later rejected →
      ∀ bytes c, Command.parse bytes = .ok c → c.NeedsMark →
        (execute (some secret) client bytes (runSteps (some secret) later rejected).2).1 =
          .invalidAuth) ∧
    (¬ ShutOut secret client s → s.store.faults .get = none →
      ∀ bytes c, Command.parse bytes = .ok c → c.NeedsMark →
        (execute (some secret) client bytes rejected).1 ≠ .invalidAuth) := by
  intro s rejected hauth hrejected
  have hs : s.Settled := settled_runSteps (.empty store now channel) (some secret) past
  have hsame : rejected = s := by
    change (execute (some secret) client auth s).2.settle = s
    rw [execute_of_rejected hauth hrejected, hs.settle_eq]
  refine ⟨hsame, ?_, ?_⟩
  · intro hshut later hlater bytes c hparse hc
    rw [← hsame] at hshut hs
    have hlast := hshut.runSteps hs hlater
    by_contra hadmitted
    exact ((execute_ne_invalidAuth_iff hparse hc).mp hadmitted).2 hlast
  · intro hmarked hfault bytes c hparse hc
    rw [hsame]
    exact (execute_ne_invalidAuth_iff hparse hc).mpr ⟨hfault, hmarked⟩

/-- A client without the mark is shut out after its `AUTH` is rejected, while another client writes
a key of its own and time passes; a `SET` of the mark by the client itself is refused too. -/
theorem stranger_stays_shut_out :
    let start : TimedStore (Recorded AnyStore) := { store := { store := .memory {} } }
    let s := (runSteps (some "s") [.frame "Q" (bytesOf "AUTH s\n")] start).2
    let rejected := (step (some "s") (.frame "P" (bytesOf "AUTH x\n")) s).2
    let later : List Step := [.frame "Q" (bytesOf "SET j v 1\n"), .advance 1000,
      .frame "P" (bytesOf "SET P s\n")]
    (execute (some "s") "P" (bytesOf "GET k\n") (runSteps (some "s") later rejected).2).1 =
      .invalidAuth := by
  intro start s rejected later
  have hother : Command.parse (bytesOf "SET j v 1\n") = .ok (.set "j" "v" (some 1)) := by
    decide +kernel
  have hwrites : ∀ c, Command.parse (bytesOf "SET j v 1\n") = .ok c → ¬ c.Decides "P" := by
    intro c hc
    cases hother.symm.trans hc
    simp [Command.Decides]
  have hlater : AdmitsNone "s" "P" later rejected := by
    refine ⟨not_mayAdmit_of_other (by decide) hwrites, id, ?_, trivial⟩
    rintro ⟨hok, -⟩
    exact absurd hok (by decide +kernel)
  obtain ⟨-, hshut, -⟩ := rejected_auth_decides_nothing "s" { store := .memory {} } 0 {}
    [.frame "Q" (bytesOf "AUTH s\n")] "P" "x" (bytesOf "AUTH x\n") (by decide +kernel)
    (by decide +kernel)
  exact hshut (by unfold ShutOut; decide +kernel) later hlater (bytesOf "GET k\n") (.get "k")
    (by decide +kernel) trivial

/-- A client that has authenticated before is let in after its `AUTH` is rejected. -/
theorem rejected_auth_leaves_mark :
    let start : TimedStore (Recorded AnyStore) := { store := { store := .memory {} } }
    let s := (runSteps (some "s") [.frame "P" (bytesOf "AUTH s\n")] start).2
    (execute (some "s") "P" (bytesOf "AUTH x\n") s).1 = .invalidAuth ∧
      (execute (some "s") "P" (bytesOf "GET k\n")
        (step (some "s") (.frame "P" (bytesOf "AUTH x\n")) s).2).1 = .error := by
  decide +kernel

end Dispatch

end KvServer
