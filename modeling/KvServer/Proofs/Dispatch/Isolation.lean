import KvServer.Proofs.Dispatch.Bisimulation
import KvServer.Proofs.Dispatch.Grant
import KvServer.Proofs.Dispatch.TtlRefinement
import Mathlib.Data.List.Infix

/-!
# A client without the secret

A client whose key never holds the secret leaves no trace but look-ups of its mark.  So a run goes
on as if its frames had not been sent, step by step (`isolated`): the states of the two runs differ
in the look-ups of their records only.  And it learns nothing: each of its frames is answered by the
frame alone.
-/

namespace KvServer

open Text

namespace Recorded

variable {σ : Type}

/-- The calls noted that may change something, the latest first. -/
def changes (r : Recorded σ) : List Note := r.notes.filter (·.call.kind ≠ .get)

/-- Two stores that differ in the look-ups of their records only. -/
structure SameChanges (a b : Recorded σ) : Prop where
  store : a.store = b.store
  faults : a.faults = b.faults
  changes : a.changes = b.changes

theorem changes_note (c : Call) (o : c.Outcome) (r : Recorded σ) :
    (r.note c o).changes = if c.kind = .get then r.changes else ⟨c, o.error?⟩ :: r.changes := by
  by_cases h : c.kind = .get <;> simp [changes, note, h]

theorem SameChanges.note {a b : Recorded σ} (h : SameChanges a b) (c : Call) (o : c.Outcome) :
    SameChanges (a.note c o) (b.note c o) where
  store := h.store
  faults := h.faults
  changes := by rw [changes_note, changes_note, h.changes]

variable [Store σ]

theorem bisimulation_sameChanges : Store.Bisimulation (SameChanges (σ := σ)) :=
  bisimulation_of_note SameChanges.store SameChanges.faults
    (fun _ h ↦ ⟨rfl, h.faults, h.changes⟩) fun c o h ↦ h.note c o

/-- A look-up changes nothing but the record. -/
theorem SameChanges.lookUp {a b : Recorded Memory} (h : SameChanges a b) (key : String) :
    SameChanges (Store.call (.get key) a).2 b := by
  have hnote : ∀ o : Call.Outcome (.get key), SameChanges (a.note (.get key) o) b := fun o ↦
    ⟨h.store, h.faults, by simpa [changes_note, Call.kind] using h.changes⟩
  cases hfault : a.faults (Call.get key).kind with
  | some e =>
      rw [call_of_fault hfault]
      exact hnote _
  | none =>
      rw [call_of_no_fault hfault]
      exact hnote _

end Recorded

namespace TtlMap.Event

def isFrameOf (u : String) : Event → Bool
  | .frame identity _ => identity = u
  | .revoke _ | .advance _ | .signal _ => false

/-- The frames of a client in a run. -/
def framesOf (u : String) (es : List Event) : List Bytes :=
  es.filterMap fun
    | .frame identity bytes => if identity = u then some bytes else none
    | .revoke _ | .advance _ | .signal _ => none

/-- A run without the frames of a client. -/
def without (u : String) (es : List Event) : List Event := es.filter fun e ↦ !e.isFrameOf u

/-- The answers to the events of one kind. -/
def answersTo (p : Event → Bool) (es : List Event) (answers : List Dispatch.Answer) :
    List Dispatch.Answer :=
  ((es.zip answers).filter fun x ↦ p x.1).map Prod.snd

variable {u : String} {e : Event} {p : Event → Bool}

theorem eq_frame_of_isFrameOf (h : e.isFrameOf u = true) : ∃ bytes, e = .frame u bytes := by
  cases e with
  | frame identity bytes => exact ⟨bytes, by rw [of_decide_eq_true h]⟩
  | revoke identity => cases h
  | advance ms => cases h
  | signal sig => cases h

theorem without_cons_self (bytes : Bytes) (es : List Event) :
    without u (.frame u bytes :: es) = without u es := by
  simp [without, isFrameOf]

theorem without_cons_other (h : e.isFrameOf u = false) (es : List Event) :
    without u (e :: es) = e :: without u es := by
  simp [without, h]

theorem framesOf_cons_self (bytes : Bytes) (es : List Event) :
    framesOf u (.frame u bytes :: es) = bytes :: framesOf u es := by
  simp [framesOf]

theorem framesOf_cons_other (h : e.isFrameOf u = false) (es : List Event) :
    framesOf u (e :: es) = framesOf u es := by
  cases e with
  | frame identity bytes => simp [framesOf, of_decide_eq_false h]
  | revoke identity => rfl
  | advance ms => rfl
  | signal sig => rfl

theorem answersTo_cons_of_pos (h : p e = true) (a : Dispatch.Answer) (es : List Event)
    (answers : List Dispatch.Answer) :
    answersTo p (e :: es) (a :: answers) = a :: answersTo p es answers := by
  simp [answersTo, h]

theorem answersTo_cons_of_neg (h : p e = false) (a : Dispatch.Answer) (es : List Event)
    (answers : List Dispatch.Answer) :
    answersTo p (e :: es) (a :: answers) = answersTo p es answers := by
  simp [answersTo, h]

end TtlMap.Event

namespace Dispatch

open Recorded TimedStore TtlMap TtlMap.Event

variable {m : TtlMap} {s t : TimedStore (Recorded Memory)} {secret u : String}

/-- The answers of a run and the state that it leaves. -/
abbrev course (secret : String) (es : List Event) (s : TimedStore (Recorded Memory)) :
    List Answer × TimedStore (Recorded Memory) :=
  runSteps (some secret) (es.map Event.step) s

/-- A frame of a client that does not hold the secret, not even after it, is refused and leaves no
trace but a look-up. -/
theorem step_refused (hr : Refines m s) (hst : Alike SameChanges s t) {bytes : Bytes}
    (hbefore : s.contents u ≠ some secret)
    (hafter : (step (some secret) (.frame u bytes) s).2.contents u ≠ some secret) :
    (step (some secret) (.frame u bytes) s).1 = (Visit.frame u bytes).refusal ∧
      Alike SameChanges (step (some secret) (.frame u bytes) s).2 t := by
  have hauth : Command.parse bytes ≠ .ok (.auth secret) := by
    intro hparse
    -- the frame would leave the secret under the key
    have hmark := (hr.call (.auth u secret)).2
    apply hafter
    rw [step, execute_of_ok hparse, run, authenticate_some, if_pos rfl]
    simp only [hmark.settled.settle_eq]
    refine (congrFun hmark.values u).trans ?_
    simp [Call.contentsAfter]
  obtain ⟨hanswer, hnext | hnext⟩ := execute_refused hbefore hauth
  · refine ⟨hanswer, ?_⟩
    simp only [step, hnext, hr.settled.settle_eq]
    exact hst
  · have hlookUp := (hr.call (.get u)).2
    refine ⟨hanswer, ?_⟩
    simp only [step, hnext, hlookUp.settled.settle_eq]
    exact ⟨hst.store.lookUp u, hst.now, hst.channel, hst.timers, hst.armed⟩

theorem course_cons (e : Event) (es : List Event) (s : TimedStore (Recorded Memory)) :
    course secret (e :: es) s =
      ((step (some secret) e.step s).1 :: (course secret es (step (some secret) e.step s).2).1,
        (course secret es (step (some secret) e.step s).2).2) := rfl

/-- Two related states stay related when one run leaves out the frames of a client that never holds
the secret. -/
theorem isolated (hr : Refines m s) (hst : Alike SameChanges s t) {es : List Event}
    (hu : ∀ before, before <+: es → (course secret before s).2.contents u ≠ some secret) :
    Alike SameChanges (course secret es s).2 (course secret (without u es) t).2 ∧
      answersTo (!·.isFrameOf u) es (course secret es s).1 =
        (course secret (without u es) t).1 ∧
      answersTo (·.isFrameOf u) es (course secret es s).1 =
        (framesOf u es).map fun bytes ↦ (Visit.frame u bytes).refusal := by
  induction es generalizing m s t with
  | nil => exact ⟨hst, rfl, rfl⟩
  | cons e es ih =>
      have hnext := (hr.step (some secret) e).2
      have hu' : ∀ before, before <+: es →
          (course secret before (step (some secret) e.step s).2).2.contents u ≠ some secret :=
        fun before hbefore ↦ hu (e :: before) (List.cons_prefix_cons.mpr ⟨rfl, hbefore⟩)
      cases he : e.isFrameOf u with
      | true =>
          obtain ⟨bytes, rfl⟩ := eq_frame_of_isFrameOf he
          obtain ⟨hanswer, hsame⟩ := step_refused hr hst (hu [] List.nil_prefix)
            (hu' [] List.nil_prefix)
          obtain ⟨hlast, hothers, hown⟩ := ih hnext hsame hu'
          have hnot : (!(Event.frame u bytes).isFrameOf u) = false := by rw [he]; rfl
          rw [course_cons, without_cons_self, framesOf_cons_self, List.map_cons]
          refine ⟨hlast, ?_, ?_⟩
          · rw [answersTo_cons_of_neg hnot]
            exact hothers
          · rw [answersTo_cons_of_pos he]
            exact congrArg₂ List.cons hanswer hown
      | false =>
          obtain ⟨hanswer, hsame⟩ := hst.step bisimulation_sameChanges (some secret) e
          obtain ⟨hlast, hothers, hown⟩ := ih hnext hsame hu'
          have hnot : (!e.isFrameOf u) = true := by rw [he]; rfl
          rw [without_cons_other he, framesOf_cons_other he, course_cons, course_cons]
          refine ⟨hlast, ?_, ?_⟩
          · rw [answersTo_cons_of_pos hnot]
            exact congrArg₂ List.cons hanswer hothers
          · rw [answersTo_cons_of_neg he]
            exact hown

/-- Take any run of frames, revocations, pauses and signals on a store in memory, and a client whose
key never holds the secret.  Then the run without the frames of this client goes the same way, step
by step: the same values, clock and timers, the same calls but for look-ups, and the same answers to
everyone else.  And whatever the store and the others do, each of its frames is answered by what
this frame alone is answered. -/
theorem unauthorised_client_isolated (secret : String) (store : Memory) (now : Nat)
    (channel : Channel) (u : String) (es : List Event)
    (hu : ∀ before, before <+: es →
      (course secret before { store := { store }, now, channel }).2.store.store.values[u]? ≠
        some secret) :
    let s : TimedStore (Recorded Memory) := { store := { store }, now, channel }
    (∀ before, before <+: es →
      Alike SameChanges (course secret before s).2 (course secret (without u before) s).2) ∧
    answersTo (!·.isFrameOf u) es (course secret es s).1 = (course secret (without u es) s).1 ∧
    answersTo (·.isFrameOf u) es (course secret es s).1 =
      (framesOf u es).map fun bytes ↦ (Visit.frame u bytes).refusal := by
  intro s
  have hr := Refines.start store now channel
  have hs : Alike SameChanges s s := ⟨⟨rfl, rfl, rfl⟩, rfl, rfl, rfl, rfl⟩
  obtain ⟨-, hothers, hown⟩ := isolated hr hs hu
  refine ⟨?_, hothers, hown⟩
  intro before hbefore
  exact (isolated hr hs fun earlier hearlier ↦ hu earlier (hearlier.trans hbefore)).1

/-- A client that guesses, reads, writes and sends nonsense, beside one whose key expires. -/
theorem guessing_client_isolated :
    let s : TimedStore (Recorded Memory) := { store := { store := {} } }
    let es : List Event :=
      [.frame "a" (bytesOf "AUTH secret\n"), .frame "u" (bytesOf "AUTH guess\n"),
        .frame "a" (bytesOf "SET k v 1\n"), .frame "u" (bytesOf "GET k\n"),
        .frame "u" (bytesOf "SET a x\n"), .advance 500, .frame "a" (bytesOf "GET k\n"),
        .frame "u" (bytesOf "what\n"), .advance 500, .frame "a" (bytesOf "GET k\n")]
    (∀ before, before <+: es →
      (course "secret" before s).2.store.store.values["u"]? ≠ some "secret") ∧
    (∀ before, before <+: es →
      Alike SameChanges (course "secret" before s).2 (course "secret" (without "u" before) s).2) ∧
    answersTo (!·.isFrameOf "u") es (course "secret" es s).1 =
      [.reply .ok, .reply .ok, .none, .reply (.value "v"), .none, .reply .error] ∧
    answersTo (·.isFrameOf "u") es (course "secret" es s).1 =
      [.reply .invalidAuth, .reply .invalidAuth, .reply .invalidAuth, .reply .invalidCommand] := by
  intro s es
  have hu : ∀ before ∈ es.inits,
      (course "secret" before s).2.store.store.values["u"]? ≠ some "secret" := by
    decide +kernel
  have hu' : ∀ before, before <+: es →
      (course "secret" before s).2.store.store.values["u"]? ≠ some "secret" :=
    fun before hbefore ↦ hu before ((List.mem_inits before es).mpr hbefore)
  obtain ⟨halike, hothers, hown⟩ := unauthorised_client_isolated "secret" {} 0 {} "u" es hu'
  exact ⟨hu', halike, hothers.trans rfl, hown.trans rfl⟩

end Dispatch

end KvServer
