import KvServer.Proofs.Dispatch.Execution
import KvServer.Proofs.Dispatch.TtlMap
import KvServer.Proofs.Store.Contents

/-!
# Stores that answer alike

A bisimulation relates stores, perhaps of two kinds, that answer every call alike and stay related.
Nothing above a store sees more of it than its answers.  So two timed stores with related stores
inside and the same timers get the same replies to a frame, and stay so whatever happens to both
(`Alike.execute`, `Alike.step`).  With recorded stores this goes for whole runs (`Alike.run`).
-/

namespace KvServer

open Text

/-- Related stores answer every call alike, and stay related. -/
structure Store.Bisimulation {σ τ : Type} [Store σ] [Store τ] (R : σ → τ → Prop) : Prop where
  answer : ∀ {a : σ} {b : τ}, R a b → ∀ c, (Store.call c a).1 = (Store.call c b).1
  next : ∀ {a : σ} {b : τ}, R a b → ∀ c, R (Store.call c a).2 (Store.call c b).2

/-- A relation of recorded stores over the same store and under the same faults is a bisimulation if
it lets the store inside change and is kept by notes. -/
theorem Recorded.bisimulation_of_note {σ : Type} [Store σ] {R : Recorded σ → Recorded σ → Prop}
    (hstore : ∀ {a b}, R a b → a.store = b.store) (hfaults : ∀ {a b}, R a b → a.faults = b.faults)
    (hset : ∀ {a b} store, R a b → R { a with store } { b with store })
    (hnote : ∀ {a b} (c : Call) (o : c.Outcome), R a b → R (a.note c o) (b.note c o)) :
    Store.Bisimulation R := by
  have hcall : ∀ {a b}, R a b → ∀ c, (Store.call c a).1 = (Store.call c b).1 ∧
      R (Store.call c a).2 (Store.call c b).2 := by
    intro a b h c
    have hfault := congrFun (hfaults h) c.kind
    cases hb : b.faults c.kind with
    | some e =>
        rw [call_of_fault hb, call_of_fault (hfault.trans hb)]
        exact ⟨rfl, hnote c _ h⟩
    | none =>
        rw [call_of_no_fault hb, call_of_no_fault (hfault.trans hb), hstore h]
        exact ⟨rfl, hnote c _ (hset _ h)⟩
  exact ⟨fun h c ↦ (hcall h c).1, fun h c ↦ (hcall h c).2⟩

/-- Two timed stores with related stores inside and nothing else between them. -/
structure TimedStore.Alike {σ τ : Type} (R : σ → τ → Prop) (s : TimedStore σ) (t : TimedStore τ) :
    Prop where
  store : R s.store t.store
  now : s.now = t.now
  channel : s.channel = t.channel
  timers : s.timers = t.timers
  armed : s.armed = t.armed

namespace TimedStore.Alike

variable {σ τ : Type} {R : σ → τ → Prop} {s : TimedStore σ} {t : TimedStore τ} {key : String}
  {token : Nat}

theorem refl {R : σ → σ → Prop} (hrefl : ∀ a, R a a) (s : TimedStore σ) : Alike R s s :=
  ⟨hrefl _, rfl, rfl, rfl, rfl⟩

theorem trans {R : σ → σ → Prop} (htrans : ∀ {a b c}, R a b → R b c → R a c)
    {s t u : TimedStore σ} (h : Alike R s t) (h' : Alike R t u) : Alike R s u where
  store := htrans h.store h'.store
  now := h.now.trans h'.now
  channel := h.channel.trans h'.channel
  timers := h.timers.trans h'.timers
  armed := h.armed.trans h'.armed

/-! ## Timers -/

theorem finish (h : Alike R s t) (status : TimerStatus) (token : Nat) :
    Alike R (s.finish status token) (t.finish status token) where
  store := h.store
  now := h.now
  channel := h.channel
  timers := by simp only [TimedStore.finish, h.timers]
  armed := h.armed

theorem disarm (h : Alike R s t) : Alike R (s.disarm key) (t.disarm key) := by
  cases harmed : s.armed[key]? with
  | none =>
      have harmed' : t.armed[key]? = none := h.armed ▸ harmed
      rwa [disarm_of_not_armed harmed, disarm_of_not_armed harmed']
  | some token =>
      have harmed' : t.armed[key]? = some token := h.armed ▸ harmed
      have hfinish := h.finish .cancelled token
      rw [disarm_of_armed harmed, disarm_of_armed harmed']
      exact ⟨hfinish.store, hfinish.now, hfinish.channel, hfinish.timers, by simp only [h.armed]⟩

theorem arm (h : Alike R s t) (ttl : Nat) : Alike R (s.arm key ttl) (t.arm key ttl) where
  store := h.store
  now := h.now
  channel := h.channel
  timers := by simp only [TimedStore.arm, h.timers, h.now]
  armed := by simp only [TimedStore.arm, h.timers, h.armed]

theorem rearm (h : Alike R s t) (ttl : Option Nat) :
    Alike R (s.rearm key ttl) (t.rearm key ttl) := by
  cases ttl with
  | none => exact h.disarm
  | some ttl => exact h.disarm.arm ttl

theorem due (h : Alike R s t) : s.due = t.due := by
  simp only [TimedStore.due, h.timers, h.now]

theorem endTimers (h : Alike R s t) : Alike R s.endTimers t.endTimers where
  store := h.store
  now := h.now
  channel := h.channel
  timers := by simp only [TimedStore.endTimers, h.timers]
  armed := h.armed

variable [Store σ] [Store τ]

/-! ## Calls and writes -/

theorem call (hR : Store.Bisimulation R) (h : Alike R s t) (c : Call) :
    (s.call c).1 = (t.call c).1 ∧ Alike R (s.call c).2 (t.call c).2 :=
  ⟨hR.answer h.store c, hR.next h.store c, h.now, h.channel, h.timers, h.armed⟩

omit [Store σ] [Store τ] in
theorem write {f : σ → Except StoreError Unit × σ} {g : τ → Except StoreError Unit × τ}
    (h : Alike R s t) (key : String) (hanswer : (f s.store).1 = (g t.store).1)
    (hnext : R (f s.store).2 (g t.store).2) (ttl : Option Nat) :
    (s.write key ttl f).1 = (t.write key ttl g).1 ∧
      Alike R (s.write key ttl f).2 (t.write key ttl g).2 := by
  rcases hf : f s.store with ⟨e | ⟨⟩, a⟩ <;> rcases hg : g t.store with ⟨e' | ⟨⟩, b⟩ <;>
    rw [hf, hg] at hanswer hnext
  · cases hanswer
    rw [write_of_error ttl hf, write_of_error ttl hg]
    exact ⟨rfl, hnext, h.now, h.channel, h.timers, h.armed⟩
  · cases hanswer
  · cases hanswer
  · have hset : Alike R { s with store := a } { t with store := b } :=
      ⟨hnext, h.now, h.channel, h.timers, h.armed⟩
    rw [write_of_ok ttl hf, write_of_ok ttl hg]
    exact ⟨by simp only [h.timers], hset.rearm ttl⟩

/-! ## Time -/

theorem expire (hR : Store.Bisimulation R) (h : Alike R s t) :
    Alike R (s.expire key token) (t.expire key token) := by
  unfold TimedStore.expire
  rw [h.armed]
  split
  · have herase : Alike R { s with armed := t.armed.erase key }
        { t with armed := t.armed.erase key } := ⟨h.store, h.now, h.channel, h.timers, rfl⟩
    exact (herase.call hR (.delete key)).2
  · exact h

theorem fire (hR : Store.Bisimulation R) (h : Alike R s t) (token : Nat) :
    Alike R (s.fire token) (t.fire token) := by
  unfold TimedStore.fire
  rw [h.timers]
  cases t.timers[token]? with
  | none => exact h
  | some timer => exact (h.finish .done token).expire hR

theorem fireAll (hR : Store.Bisimulation R) (h : Alike R s t) (tokens : List Nat) :
    Alike R (s.fireAll tokens) (t.fireAll tokens) := by
  induction tokens generalizing s t with
  | nil => exact h
  | cons token tokens ih => exact ih (h.fire hR token)

theorem settle (hR : Store.Bisimulation R) (h : Alike R s t) : Alike R s.settle t.settle := by
  cases hstop : t.channel.stopped with
  | true =>
      have hstop' : s.channel.stopped = true := h.channel ▸ hstop
      rw [settle_of_stopped hstop, settle_of_stopped hstop']
      exact h.endTimers
  | false =>
      have hstop' : s.channel.stopped = false := h.channel ▸ hstop
      rw [settle_of_not_stopped hstop, settle_of_not_stopped hstop', h.due]
      exact h.fireAll hR _

theorem advance (hR : Store.Bisimulation R) (h : Alike R s t) (ms : Nat) :
    Alike R (s.advance ms) (t.advance ms) := by
  have hlater : Alike R { s with now := s.now + ms } { t with now := t.now + ms } :=
    ⟨h.store, congrArg (· + ms) h.now, h.channel, h.timers, h.armed⟩
  exact hlater.settle hR

theorem signal (hR : Store.Bisimulation R) (h : Alike R s t) (sig : Signal) :
    Alike R (s.signal sig) (t.signal sig) := by
  have hafter : Alike R { s with channel := s.channel.after sig }
      { t with channel := t.channel.after sig } :=
    ⟨h.store, h.now, congrArg (·.after sig) h.channel, h.timers, h.armed⟩
  exact hafter.settle hR

/-! ## Frames -/

variable {secret : Option String} {identity : String}

theorem set (hR : Store.Bisimulation R) (h : Alike R s t) (key value : String)
    (ttl : Option Nat) :
    (Dispatch.set key value ttl s).1 = (Dispatch.set key value ttl t).1 ∧
      Alike R (Dispatch.set key value ttl s).2 (Dispatch.set key value ttl t).2 := by
  obtain ⟨hanswer, hnext⟩ := h.write key (hR.answer h.store (.set key value))
    (hR.next h.store (.set key value)) (ttl.map Dispatch.milliseconds)
  rw [Dispatch.set_eq, Dispatch.set_eq]
  exact ⟨congrArg Dispatch.replyOf hanswer, hnext⟩

theorem del (hR : Store.Bisimulation R) (h : Alike R s t) (key : String) :
    (Dispatch.del key s).1 = (Dispatch.del key t).1 ∧
      Alike R (Dispatch.del key s).2 (Dispatch.del key t).2 := by
  obtain ⟨hanswer, hnext⟩ := h.write key (hR.answer h.store (.delete key))
    (hR.next h.store (.delete key)) none
  rw [Dispatch.del_eq, Dispatch.del_eq]
  exact ⟨congrArg Dispatch.replyOf hanswer, hnext⟩

theorem get (hR : Store.Bisimulation R) (h : Alike R s t) (key : String) :
    (Dispatch.get key s).1 = (Dispatch.get key t).1 ∧
      Alike R (Dispatch.get key s).2 (Dispatch.get key t).2 := by
  obtain ⟨hanswer, hnext⟩ := h.call hR (.get key)
  rw [Dispatch.get_eq, Dispatch.get_eq]
  exact ⟨congrArg Dispatch.valueOf hanswer, hnext⟩

theorem authenticate (hR : Store.Bisimulation R) (h : Alike R s t) (candidate : String) :
    (Dispatch.authenticate secret identity candidate s).1 =
        (Dispatch.authenticate secret identity candidate t).1 ∧
      Alike R (Dispatch.authenticate secret identity candidate s).2
        (Dispatch.authenticate secret identity candidate t).2 := by
  cases secret with
  | none => exact ⟨rfl, h⟩
  | some secret =>
      obtain ⟨hanswer, hnext⟩ := h.call hR (.auth identity secret)
      rw [Dispatch.authenticate_some, Dispatch.authenticate_some]
      split
      · exact ⟨congrArg Dispatch.replyOf hanswer, hnext⟩
      · exact ⟨rfl, h⟩

/-- Related states look a mark up with the same outcome. -/
theorem authorized (hR : Store.Bisimulation R) (h : Alike R s t)
    {f : TimedStore σ → Reply × TimedStore σ} {g : TimedStore τ → Reply × TimedStore τ}
    (hbody : ∀ {s t}, Alike R s t → (f s).1 = (g t).1 ∧ Alike R (f s).2 (g t).2) :
    (Dispatch.authorized secret identity f s).1 = (Dispatch.authorized secret identity g t).1 ∧
      Alike R (Dispatch.authorized secret identity f s).2
        (Dispatch.authorized secret identity g t).2 := by
  cases secret with
  | none => exact hbody h
  | some secret =>
      obtain ⟨hanswer, hnext⟩ := h.call hR (.get identity)
      by_cases hmarked : (s.call (.get identity)).1 = .ok secret
      · have hmarked' : (t.call (.get identity)).1 = .ok secret := hanswer ▸ hmarked
        rw [Dispatch.authorized_of_marked f hmarked, Dispatch.authorized_of_marked g hmarked']
        exact hbody hnext
      · have hmarked' : (t.call (.get identity)).1 ≠ .ok secret := hanswer ▸ hmarked
        rw [Dispatch.authorized_of_not_marked f hmarked,
          Dispatch.authorized_of_not_marked g hmarked']
        exact ⟨rfl, hnext⟩

/-- A frame gets the same reply in related states, and leaves related states. -/
theorem execute (hR : Store.Bisimulation R) (h : Alike R s t) (frame : Bytes) :
    (Dispatch.execute secret identity frame s).1 = (Dispatch.execute secret identity frame t).1 ∧
      Alike R (Dispatch.execute secret identity frame s).2
        (Dispatch.execute secret identity frame t).2 := by
  cases hparse : Command.parse frame with
  | error e =>
      rw [Dispatch.execute_of_error hparse, Dispatch.execute_of_error hparse]
      exact ⟨rfl, h⟩
  | ok c =>
      rw [Dispatch.execute_of_ok hparse, Dispatch.execute_of_ok hparse]
      cases c with
      | auth candidate => exact h.authenticate hR candidate
      | set key value ttl => exact h.authorized hR fun h ↦ h.set hR key value ttl
      | get key => exact h.authorized hR fun h ↦ h.get hR key
      | del key => exact h.authorized hR fun h ↦ h.del hR key

theorem revoke (hR : Store.Bisimulation R) (h : Alike R s t) :
    Alike R (Dispatch.revoke secret identity s) (Dispatch.revoke secret identity t) := by
  unfold Dispatch.revoke
  split
  · exact (h.call hR (.delete identity)).2
  · exact h

/-- An event is answered alike in related states, and leaves related states. -/
theorem step {R : Recorded σ → Recorded τ → Prop} {s : TimedStore (Recorded σ)}
    {t : TimedStore (Recorded τ)} (hR : Store.Bisimulation R) (h : Alike R s t)
    (secret : Option String) (e : TtlMap.Event) :
    (Dispatch.step secret e.step s).1 = (Dispatch.step secret e.step t).1 ∧
      Alike R (Dispatch.step secret e.step s).2 (Dispatch.step secret e.step t).2 := by
  cases e with
  | frame identity bytes =>
      obtain ⟨hreply, hnext⟩ := h.execute hR bytes
      exact ⟨congrArg Dispatch.Answer.reply hreply, hnext.settle hR⟩
  | revoke identity => exact ⟨rfl, h.revoke hR⟩
  | advance ms => exact ⟨rfl, h.advance hR ms⟩
  | signal sig => exact ⟨rfl, h.signal hR sig⟩

end TimedStore.Alike

/-! ## Runs -/

/-- Related recorded stores answer alike and stay related, also to calls from outside and when
faults are set. -/
structure Recorded.Bisimulation {σ τ : Type} [Store σ] [Store τ]
    (R : Recorded σ → Recorded τ → Prop) : Prop extends Store.Bisimulation R where
  setFault : ∀ {a : Recorded σ} {b : Recorded τ}, R a b → ∀ kind error?,
    R (a.setFault kind error?) (b.setFault kind error?)
  direct : ∀ {a : Recorded σ} {b : Recorded τ}, R a b → ∀ c,
    (a.direct c).1 = (b.direct c).1 ∧ R (a.direct c).2 (b.direct c).2

namespace TimedStore.Alike

open Dispatch

variable {σ τ : Type} [Store σ] [Store τ] {R : Recorded σ → Recorded τ → Prop}
  {s : TimedStore (Recorded σ)} {t : TimedStore (Recorded τ)}

/-- Every step of a dispatcher is answered alike in related states, and leaves related states. -/
theorem anyStep (hR : Recorded.Bisimulation R) (h : Alike R s t) (secret : Option String)
    (st : Step) :
    (Dispatch.step secret st s).1 = (Dispatch.step secret st t).1 ∧
      Alike R (Dispatch.step secret st s).2 (Dispatch.step secret st t).2 := by
  cases st with
  | frame identity bytes => exact h.step hR.toBisimulation secret (.frame identity bytes)
  | revoke identity => exact h.step hR.toBisimulation secret (.revoke identity)
  | advance ms => exact h.step hR.toBisimulation secret (.advance ms)
  | signal sig => exact h.step hR.toBisimulation secret (.signal sig)
  | fault kind error? =>
      exact ⟨rfl, hR.setFault h.store kind error?, h.now, h.channel, h.timers, h.armed⟩
  | direct c =>
      obtain ⟨hanswer, hnext⟩ := hR.direct h.store c
      exact ⟨congrArg (Answer.outcome c) hanswer, hnext, h.now, h.channel, h.timers, h.armed⟩

theorem run (hR : Recorded.Bisimulation R) (h : Alike R s t) (secret : Option String)
    (sts : List Step) :
    (Dispatch.runSteps secret sts s).1 = (Dispatch.runSteps secret sts t).1 ∧
      Alike R (Dispatch.runSteps secret sts s).2 (Dispatch.runSteps secret sts t).2 := by
  induction sts generalizing s t with
  | nil => exact ⟨rfl, h⟩
  | cons st sts ih =>
      obtain ⟨hanswer, hnext⟩ := h.anyStep hR secret st
      obtain ⟨hanswers, hend⟩ := ih hnext
      refine ⟨?_, hend⟩
      rw [Dispatch.runSteps, Dispatch.runSteps]
      exact congrArg₂ List.cons hanswer hanswers

end TimedStore.Alike

end KvServer
