import KvServer.Proofs.Dispatch.Effect
import Mathlib.Data.List.Induction

/-!
# No command without a grant

Marks of clients are values, so any client that may write can take away the mark of another or give
it one.  `Granted` says how a key has come to hold the secret: it always did, or a frame has put it
there and nothing has taken it away since.  One visit gives a key the secret only if it `Grants` it
(`held_step`), and the run follows by induction from its end (`granted_of_held`).  As long as no one
presents the secret, nothing happens at all but look-ups (`Untouched.step`).
-/

namespace KvServer.Dispatch

open Function Text

/-- What reaches a dispatcher: frames of clients, time, and faults of its store. -/
inductive Visit
  | frame (identity : String) (bytes : Bytes)
  | advance (ms : Nat)
  | fault (kind : CallKind) (error? : Option StoreError)

namespace Visit

def step : Visit → Step
  | frame identity bytes => .frame identity bytes
  | advance ms => .advance ms
  | fault kind error? => .fault kind error?

/-- What a visit is answered when nobody holds the secret. -/
def refusal : Visit → Answer
  | frame _ bytes =>
      match Command.parse bytes with
      | .error e => .reply (.ofFrameError e)
      | .ok _ => .reply .invalidAuth
  | advance _ | fault .. => .none

theorem refusal_of_error {identity : String} {bytes : Bytes} {e : FrameError}
    (h : Command.parse bytes = .error e) :
    (frame identity bytes).refusal = .reply (.ofFrameError e) := by
  simp [refusal, h]

theorem refusal_of_ok {identity : String} {bytes : Bytes} {c : Command}
    (h : Command.parse bytes = .ok c) : (frame identity bytes).refusal = .reply .invalidAuth := by
  simp [refusal, h]

end Visit

variable {σ : Type} [Store σ] {s : TimedStore (Recorded σ)} {secret u : String}

def after (secret : String) (vs : List Visit) (s : TimedStore (Recorded σ)) :
    TimedStore (Recorded σ) :=
  (runSteps (some secret) (vs.map Visit.step) s).2

theorem after_append (vs later : List Visit) :
    after secret (vs ++ later) s = after secret later (after secret vs s) := by
  rw [after, List.map_append, runSteps_append]
  rfl

theorem after_concat (vs : List Visit) (v : Visit) :
    after secret (vs ++ [v]) s = (step (some secret) v.step (after secret vs s)).2 :=
  after_append vs [v]

theorem coherent_step (hs : s.Coherent) (v : Visit) :
    (step (some secret) v.step s).2.Coherent := by
  cases v with
  | frame identity bytes => exact (coherent_execute bytes hs).settled_settle.coherent
  | advance ms =>
      have hlater : TimedStore.Coherent { s with now := s.now + ms } := hs.setNow _
      exact hlater.settled_settle.coherent
  | fault kind error? => exact hs.setStore _

theorem coherent_after (hs : s.Coherent) (vs : List Visit) : (after secret vs s).Coherent := by
  induction vs using List.reverseRecOn with
  | nil => exact hs
  | append_singleton vs v ih =>
      rw [after_concat]
      exact coherent_step ih v

/-! ## Where the secret comes from -/

variable [MapStore σ]

/-- A visit that puts the secret under a key: an `AUTH` of the client itself with this secret, or a
`SET` of the key by a client that holds the secret. -/
def Grants (secret u : String) (s : TimedStore (Recorded σ)) : Visit → Prop
  | .frame identity bytes =>
      (execute (some secret) identity bytes s).1 = .ok ∧
        ((identity = u ∧ Command.parse bytes = .ok (.auth secret)) ∨
          (s.contents identity = some secret ∧
            ∃ ttl, Command.parse bytes = .ok (.set u secret ttl)))
  | .advance _ | .fault .. => False

/-- How a key has come to hold the secret: it always has, or a visit has granted it and the key has
held it ever since. -/
def Granted (secret u : String) (s : TimedStore (Recorded σ)) (vs : List Visit) : Prop :=
  (∀ before, before <+: vs → (after secret before s).contents u = some secret) ∨
    ∃ before v later, vs = before ++ v :: later ∧ Grants secret u (after secret before s) v ∧
      ∀ between, between <+: later →
        (after secret (before ++ v :: between) s).contents u = some secret

/-- A frame after which a key holds the secret has found it there or put it there. -/
theorem Effect.held {identity : String} {v v' : String → Option String} {r : Reply}
    {p : Except FrameError Command} (heffect : Effect (some secret) identity v p r v')
    (h : v' u = some secret) :
    v u = some secret ∨
      r = .ok ∧
        ((identity = u ∧ p = .ok (.auth secret)) ∨
          (v identity = some secret ∧ ∃ ttl, p = .ok (.set u secret ttl))) := by
  cases heffect with
  | same => exact Or.inl h
  | mark hsecret =>
      cases hsecret
      by_cases hu : u = identity
      · exact Or.inr ⟨rfl, Or.inl ⟨hu.symm, rfl⟩⟩
      · rw [update_of_ne hu] at h
        exact Or.inl h
  | @put key value ttl hmark =>
      by_cases hu : u = key
      · subst hu
        rw [update_self, Option.some.injEq] at h
        subst h
        exact Or.inr ⟨rfl, Or.inr ⟨hmark value rfl, ttl, rfl⟩⟩
      · rw [update_of_ne hu] at h
        exact Or.inl h
  | @drop key hmark =>
      by_cases hu : u = key
      · simp [hu] at h
      · rw [update_of_ne hu] at h
        exact Or.inl h

/-- A key that holds the secret after a visit has held it before or was granted it. -/
theorem held_step (hs : s.Coherent) {v : Visit}
    (h : (step (some secret) v.step s).2.contents u = some secret) :
    s.contents u = some secret ∨ Grants secret u s v := by
  cases v with
  | frame identity bytes =>
      have hexecute : (execute (some secret) identity bytes s).2.contents u = some secret :=
        TimedStore.contents_settle_of_some (coherent_execute bytes hs) h
      exact (execute_effect bytes).held hexecute
  | advance ms =>
      have hlater : TimedStore.Coherent { s with now := s.now + ms } := hs.setNow _
      have hbefore : TimedStore.contents { s with now := s.now + ms } u = some secret :=
        TimedStore.contents_settle_of_some hlater h
      exact Or.inl hbefore
  | fault kind error? => exact Or.inl h

theorem Granted.concat {vs : List Visit} {v : Visit} (hg : Granted secret u s vs)
    (h : (after secret (vs ++ [v]) s).contents u = some secret) : Granted secret u s (vs ++ [v]) := by
  rcases hg with hall | ⟨before, w, later, rfl, hgrants, hsince⟩
  · refine Or.inl fun before hbefore ↦ ?_
    rcases List.prefix_concat_iff.mp hbefore with rfl | hbefore
    · exact h
    · exact hall before hbefore
  · refine Or.inr ⟨before, w, later ++ [v], by simp, hgrants, fun between hbetween ↦ ?_⟩
    rcases List.prefix_concat_iff.mp hbetween with rfl | hbetween
    · simpa using h
    · exact hsince between hbetween

/-- A key that holds the secret has an origin for it. -/
theorem granted_of_held (hs : s.Coherent) {vs : List Visit}
    (h : (after secret vs s).contents u = some secret) : Granted secret u s vs := by
  induction vs using List.reverseRecOn with
  | nil =>
      refine Or.inl fun before hbefore ↦ ?_
      rw [List.prefix_nil.mp hbefore]
      exact h
  | append_singleton vs v ih =>
      have hstep := h
      rw [after_concat] at hstep
      rcases held_step (coherent_after hs vs) hstep with hheld | hgrants
      · exact (ih hheld).concat h
      · refine Or.inr ⟨vs, v, [], rfl, hgrants, fun between hbetween ↦ ?_⟩
        rw [List.prefix_nil.mp hbetween]
        exact h

/-! ## Before anyone holds the secret -/

/-- A client that does not hold the secret and does not present it is refused, and at most looked
up. -/
theorem execute_refused {identity : String} {bytes : Bytes}
    (hheld : s.contents identity ≠ some secret)
    (hauth : Command.parse bytes ≠ .ok (.auth secret)) :
    Answer.reply (execute (some secret) identity bytes s).1 =
        (Visit.frame identity bytes).refusal ∧
      ((execute (some secret) identity bytes s).2 = s ∨
        (execute (some secret) identity bytes s).2 = (s.call (.get identity)).2) := by
  cases hparse : Command.parse bytes with
  | error e =>
      rw [execute_of_error hparse, Visit.refusal_of_error hparse]
      exact ⟨rfl, Or.inl rfl⟩
  | ok c =>
      have hlookUp : (s.call (.get identity)).1 ≠ .ok secret := fun hmarked ↦
        hheld (TimedStore.eq_some_of_call_get hmarked)
      have hrefused : c.NeedsMark → Answer.reply (run (some secret) identity c s).1 =
          .reply .invalidAuth ∧
            (run (some secret) identity c s).2 = (s.call (.get identity)).2 := by
        intro hc
        obtain ⟨hiff, hnext⟩ := run_eq_invalidAuth_iff hc secret identity s
        exact ⟨congrArg Answer.reply (hiff.mpr hlookUp), hnext (hiff.mpr hlookUp)⟩
      rw [execute_of_ok hparse, Visit.refusal_of_ok hparse]
      cases c with
      | auth candidate =>
          have hne : candidate ≠ secret := by
            rintro rfl
            exact hauth hparse
          rw [run, authenticate_some, if_neg hne]
          exact ⟨rfl, Or.inl rfl⟩
      | set key value ttl => exact (hrefused trivial).imp_right Or.inr
      | get key => exact (hrefused trivial).imp_right Or.inr
      | del key => exact (hrefused trivial).imp_right Or.inr

/-- Nothing has happened to a store but look-ups. -/
structure Untouched (v : String → Option String) (s : TimedStore (Recorded σ)) : Prop where
  contents : s.contents = v
  timers : s.timers = []
  reads : ∀ n ∈ s.store.notes, ∃ key, n.call = .get key

theorem Untouched.settle {v : String → Option String} (h : Untouched v s) :
    Untouched v s.settle := by
  have hsettle : s.settle.store = s.store ∧ s.settle.timers = [] := by
    cases hstop : s.channel.stopped with
    | true =>
        rw [TimedStore.settle_of_stopped hstop]
        exact ⟨rfl, by simp [TimedStore.endTimers, h.timers]⟩
    | false =>
        have hdue : s.due = [] := by simp [TimedStore.due, h.timers]
        rw [TimedStore.settle_of_not_stopped hstop, hdue]
        exact ⟨rfl, h.timers⟩
  refine ⟨?_, hsettle.2, ?_⟩
  · rw [TimedStore.contents, hsettle.1]
    exact h.contents
  · rw [hsettle.1]
    exact h.reads

theorem Untouched.lookUp {v : String → Option String} (h : Untouched v s) (key : String) :
    Untouched v (s.call (.get key)).2 where
  contents := TimedStore.contents_call_get.trans h.contents
  timers := h.timers
  reads := by
    intro n hn
    rw [TimedStore.call_snd, Recorded.notes_call, List.mem_cons] at hn
    rcases hn with rfl | hn
    · exact ⟨key, rfl⟩
    · exact h.reads n hn

/-- A client that does not hold the secret and does not present it is refused. -/
theorem Untouched.execute {v : String → Option String} (h : Untouched v s) {identity : String}
    {bytes : Bytes} (hheld : v identity ≠ some secret)
    (hauth : Command.parse bytes ≠ .ok (.auth secret)) :
    Answer.reply (Dispatch.execute (some secret) identity bytes s).1 =
        (Visit.frame identity bytes).refusal ∧
      Untouched v (Dispatch.execute (some secret) identity bytes s).2 := by
  rw [← h.contents] at hheld
  obtain ⟨hanswer, hnext | hnext⟩ := execute_refused hheld hauth
  · rw [hnext]
    exact ⟨hanswer, h⟩
  · rw [hnext]
    exact ⟨hanswer, h.lookUp identity⟩

theorem Untouched.step {v : String → Option String} (h : Untouched v s) {e : Visit}
    (hno : ∀ identity bytes, e = .frame identity bytes →
      v identity ≠ some secret ∧ Command.parse bytes ≠ .ok (.auth secret)) :
    (Dispatch.step (some secret) e.step s).1 = e.refusal ∧
      Untouched v (Dispatch.step (some secret) e.step s).2 := by
  cases e with
  | frame identity bytes =>
      obtain ⟨hheld, hauth⟩ := hno identity bytes rfl
      obtain ⟨hanswer, hnext⟩ := h.execute hheld hauth
      exact ⟨hanswer, hnext.settle⟩
  | advance ms =>
      have hlater : Untouched v { s with now := s.now + ms } := ⟨h.contents, h.timers, h.reads⟩
      exact ⟨rfl, hlater.settle⟩
  | fault kind error? => exact ⟨rfl, h.contents, h.timers, h.reads⟩

theorem Untouched.runSteps {v : String → Option String} (h : Untouched v s) {vs : List Visit}
    (hno : ∀ identity bytes, Visit.frame identity bytes ∈ vs →
      v identity ≠ some secret ∧ Command.parse bytes ≠ .ok (.auth secret)) :
    (Dispatch.runSteps (some secret) (vs.map Visit.step) s).1 = vs.map Visit.refusal ∧
      Untouched v (after secret vs s) := by
  induction vs generalizing s with
  | nil => exact ⟨rfl, h⟩
  | cons e vs ih =>
      obtain ⟨hanswer, hnext⟩ := h.step (e := e) fun identity bytes he ↦
        hno identity bytes (by simp [he])
      obtain ⟨hanswers, hlast⟩ := ih hnext fun identity bytes hmem ↦
        hno identity bytes (List.mem_cons_of_mem e hmem)
      refine ⟨?_, hlast⟩
      simp only [List.map_cons, Dispatch.runSteps, hanswer, hanswers]

/-- Take any run of frames, pauses and faults on a store in memory whose calls may fail as they
like.  A client that sends a command other than `AUTH` is refused, and then only looked up, or its
key holds the secret at that time and has come by it through a grant, if it did not hold it from the
start.  As long as no client of the run holds the secret from the start and none presents it, every
command is refused, the store meets look-ups only and keeps its values, and no timer is armed. -/
theorem carried_out_only_if_granted (secret : String) (store : Memory)
    (plan : Nat → Option StoreError) (now : Nat) (channel : Channel) (vs : List Visit) :
    let s₀ : TimedStore (Recorded (Faulty Memory)) :=
      { store := { store := { store, plan } }, now, channel }
    let s := after secret vs s₀
    (∀ u bytes c, Command.parse bytes = .ok c → c.NeedsMark →
      ((execute (some secret) u bytes s).1 = .invalidAuth ∧
          (execute (some secret) u bytes s).2 = (s.call (.get u)).2) ∨
        ((execute (some secret) u bytes s).1 ≠ .invalidAuth ∧
          s.store.store.store.values[u]? = some secret ∧ Granted secret u s₀ vs)) ∧
    ((∀ u bytes, Visit.frame u bytes ∈ vs →
        store.values[u]? ≠ some secret ∧ Command.parse bytes ≠ .ok (.auth secret)) →
      (runSteps (some secret) (vs.map Visit.step) s₀).1 = vs.map Visit.refusal ∧
        (∀ n ∈ s.store.calls, ∃ key, n.call = .get key) ∧ s.timers = [] ∧
        ∀ key : String, s.store.store.store.values[key]? = store.values[key]?) := by
  intro s₀ s
  have hs₀ : s₀.Coherent := .empty _ now channel
  constructor
  · intro u bytes c hparse hc
    rw [execute_of_ok hparse]
    obtain ⟨hiff, hnext⟩ := run_eq_invalidAuth_iff hc secret u s
    by_cases hreply : (run (some secret) u c s).1 = .invalidAuth
    · exact Or.inl ⟨hreply, hnext hreply⟩
    · have hmarked : (s.call (.get u)).1 = .ok secret := by
        by_cases h : (s.call (.get u)).1 = .ok secret
        · exact h
        · exact absurd (hiff.mpr h) hreply
      have hheld := TimedStore.eq_some_of_call_get hmarked
      exact Or.inr ⟨hreply, hheld, granted_of_held hs₀ hheld⟩
  · intro hno
    have hfresh : Untouched store.contents s₀ := ⟨rfl, rfl, by simp [s₀]⟩
    obtain ⟨hanswers, hlast⟩ := hfresh.runSteps hno
    refine ⟨hanswers, ?_, hlast.timers, congrFun hlast.contents⟩
    intro n hn
    exact hlast.reads n (List.mem_reverse.mp hn)

end KvServer.Dispatch
