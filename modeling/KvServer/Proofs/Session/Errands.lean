import KvServer.Proofs.Session.Script
import KvServer.Proofs.Session.Serving

/-!
# Errands

An errand is a step of a dispatcher for a peer.  A session has carried out some errands when its
data is what a dispatcher makes of them and every peer has got the replies to its own
(`CarriedOut`).  To serve the frames of a client is to carry out an errand for each of them
(`serve_eq_runSteps`).
-/

namespace KvServer

open Text

variable {σ : Type} [Store σ]

namespace Script

variable {i j : Nat} {es : List Errand}

theorem repliesTo_cons_self (st : Dispatch.Step) (r : Reply) (as : List Dispatch.Answer) :
    repliesTo i ((some i, st) :: es) (.reply r :: as) = r :: repliesTo i es as := by
  simp [repliesTo]

theorem repliesTo_cons_other {peer : Option Nat} (h : peer ≠ some i) (st : Dispatch.Step)
    (a : Dispatch.Answer) (as : List Dispatch.Answer) :
    repliesTo i ((peer, st) :: es) (a :: as) = repliesTo i es as := by
  cases peer with
  | none => simp [repliesTo]
  | some j =>
      have hij : j ≠ i := by
        rintro rfl
        exact h rfl
      cases a <;> simp [repliesTo, hij]

theorem repliesTo_eq_nil (h : ∀ e ∈ es, e.1 ≠ some j) (as : List Dispatch.Answer) :
    repliesTo j es as = [] := by
  induction es generalizing as with
  | nil => rfl
  | cons e es ih =>
      cases as with
      | nil => rfl
      | cons a as =>
          rw [repliesTo_cons_other (h e (by simp))]
          exact ih (fun e he ↦ h e (List.mem_cons_of_mem _ he)) as

end Script

open Script

namespace Dispatch

theorem length_runSteps (secret : Option String) (sts : List Step)
    (s : TimedStore (Recorded σ)) : (runSteps secret sts s).1.length = sts.length := by
  induction sts generalizing s with
  | nil => rfl
  | cons st sts ih => simp [runSteps, ih]

/-- A peer gets one reply for each of its frames. -/
theorem length_repliesTo (i : Nat) {es : List Errand}
    (hframes : ∀ e ∈ es, e.1.isSome → ∃ identity bytes, e.2 = .frame identity bytes)
    (secret : Option String) (s : TimedStore (Recorded σ)) :
    (repliesTo i es (runSteps secret (es.map Prod.snd) s).1).length =
      es.countP (·.1 = some i) := by
  induction es generalizing s with
  | nil => rfl
  | cons e es ih =>
      obtain ⟨peer, st⟩ := e
      have hrest := ih (fun e he ↦ hframes e (List.mem_cons_of_mem _ he)) (step secret st s).2
      simp only [List.map_cons, runSteps]
      by_cases hpeer : peer = some i
      · obtain ⟨identity, bytes, hst⟩ := hframes (peer, st) (by simp) (by simp [hpeer])
        obtain rfl : st = .frame identity bytes := hst
        subst hpeer
        rw [List.countP_cons_of_pos (by simp), ← hrest]
        simp only [step, repliesTo_cons_self, List.length_cons]
      · rw [List.countP_cons_of_neg (by simpa using hpeer), ← hrest, repliesTo_cons_other hpeer]

variable {secret : Option String} {identity : String}

theorem settled_serve (secret : Option String) (identity : String) (frames : List Bytes)
    (replies : List Reply) {s : TimedStore σ} (hs : s.Settled) (hstop : s.channel.stopped = false) :
    (serve secret identity frames (replies, s)).2.Settled ∧
      (serve secret identity frames (replies, s)).2.channel = s.channel := by
  induction frames generalizing replies s with
  | nil => exact ⟨hs, rfl⟩
  | cons frame frames ih =>
      have hnext : (execute secret identity frame s).2.Settled := settled_execute frame hs hstop
      have hchannel : (execute secret identity frame s).2.channel = s.channel :=
        execute_channel frame
      obtain ⟨hsettled, hsame⟩ :=
        ih ((execute secret identity frame s).1 :: replies) hnext (by rwa [hchannel])
      exact ⟨hsettled, hsame.trans hchannel⟩

/-- To serve the frames of a client is to carry out an errand for each of them. -/
theorem serve_eq_runSteps (i : Nat) (frames : List Bytes) (replies : List Reply)
    {s : TimedStore (Recorded σ)} (hs : s.Settled) (hstop : s.channel.stopped = false) :
    let es : List Errand := frames.map fun l ↦ (some i, .frame identity l)
    let d := runSteps secret (es.map Prod.snd) s
    serve secret identity frames (replies, s) = ((repliesTo i es d.1).reverse ++ replies, d.2) := by
  induction frames generalizing replies s with
  | nil => rfl
  | cons frame frames ih =>
      have hnext : (execute secret identity frame s).2.Settled := settled_execute frame hs hstop
      have hchannel : (execute secret identity frame s).2.channel = s.channel :=
        execute_channel frame
      have hstep : step secret (.frame identity frame) s =
          (.reply (execute secret identity frame s).1, (execute secret identity frame s).2) := by
        simp [step, hnext.settle_eq]
      have hrest := ih ((execute secret identity frame s).1 :: replies) hnext (by rwa [hchannel])
      simp only [List.map_cons, runSteps, hstep, repliesTo_cons_self, List.reverse_cons,
        List.append_assoc, List.singleton_append]
      rw [Session.serve_cons]
      exact hrest

end Dispatch

namespace Session

def repliesOf (i : Nat) (s : Session σ) : List Reply :=
  s.connections[i]?.elim [] (·.replies.reverse)

/-- Some errands have been carried out: the data is what they make of it, and each peer has got the
replies to its frames. -/
structure CarriedOut (es : List Errand) (s s' : Session (Recorded σ)) : Prop where
  data : s'.data = (Dispatch.runSteps s.options.secret (es.map Prod.snd) s.data).2
  replies : ∀ i, s'.repliesOf i = s.repliesOf i ++
    repliesTo i es (Dispatch.runSteps s.options.secret (es.map Prod.snd) s.data).1

variable {s s' t : Session (Recorded σ)} {es later : List Errand}

theorem CarriedOut.nil (hdata : s'.data = s.data) (hreplies : ∀ i, s'.repliesOf i = s.repliesOf i) :
    CarriedOut [] s s' where
  data := hdata
  replies i := by
    rw [hreplies]
    exact (List.append_nil _).symm

theorem CarriedOut.append (h : CarriedOut es s s') (hlater : CarriedOut later s' t)
    (hoptions : s'.options = s.options) : CarriedOut (es ++ later) s t where
  data := by
    rw [hlater.data, hoptions, h.data, List.map_append, Dispatch.runSteps_append]
  replies i := by
    have hlength : es.length =
        (Dispatch.runSteps s.options.secret (es.map Prod.snd) s.data).1.length := by
      rw [Dispatch.length_runSteps, List.length_map]
    rw [hlater.replies, hoptions, h.data, h.replies, List.map_append, Dispatch.runSteps_append,
      repliesTo_append hlength, List.append_assoc]

theorem CarriedOut.single (st : Dispatch.Step)
    (hdata : s'.data = (Dispatch.step s.options.secret st s.data).2)
    (hreplies : ∀ i, s'.repliesOf i = s.repliesOf i) : CarriedOut [(none, st)] s s' where
  data := hdata
  replies i := by
    rw [hreplies, repliesTo_eq_nil (by simp), List.append_nil]

end Session

end KvServer
