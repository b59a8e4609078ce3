import KvServer.Proofs.Dispatch.Execution
import KvServer.Proofs.Dispatch.TtlMap
import KvServer.Proofs.Store.Contents

/-!
# A dispatcher is a map whose keys expire

A dispatcher on a store in memory without faults answers like a `TtlMap` and keeps the same values
and deadlines, whatever frames, revocations, pauses and signals it meets
(`runSteps_eq_ttlMap_run`).  The deadline of a key in the map is that of the timer armed for it, if
this timer is pending: `Refines` is the simulation.
-/

namespace KvServer

open Function Text TimedStore

namespace Recorded

variable {r : Recorded Memory}

theorem call_of_faultless (h : r.faults = fun _ ↦ none) (c : Call) :
    (Store.call c r).1 = c.outcomeOn r.store.contents ∧
      (Store.call c r).2.store.contents = c.contentsAfter r.store.contents := by
  rw [call_of_no_fault (by rw [h])]
  exact Memory.call_eq c r.store

end Recorded

namespace TtlMap

variable {m : TtlMap} {s : TimedStore (Recorded Memory)} {key : String} {token : Nat}

/-- A store with timers does what the map says: it has the same values, and the deadlines of its
pending timers are those of the map. -/
structure Refines (m : TtlMap) (s : TimedStore (Recorded Memory)) : Prop where
  settled : s.Settled
  faultless : s.store.faults = fun _ ↦ none
  values : s.store.store.contents = m.values
  deadlines : ∀ key : String, s.deadline? key = m.deadlines key
  now : s.now = m.now
  channel : s.channel = m.channel

theorem Refines.call (hr : Refines m s) (c : Call) :
    (s.call c).1 = c.outcomeOn m.values ∧
      Refines { m with values := c.contentsAfter m.values } (s.call c).2 := by
  obtain ⟨houtcome, hvalues⟩ := Recorded.call_of_faultless hr.faultless c
  rw [hr.values] at houtcome hvalues
  refine ⟨houtcome, ?_⟩
  exact
    { settled := hr.settled.setStore _
      faultless := (Recorded.faults_call c s.store).trans hr.faultless
      values := hvalues
      deadlines := hr.deadlines
      now := hr.now
      channel := hr.channel }

/-- A write that succeeds decides on the deadline of its key. -/
theorem Refines.wrote (hr : Refines m s) {c : Call} (key : String) {ttl : Option Nat}
    (hpos : ∀ ms ∈ ttl, 0 < ms) :
    Refines
      { m with
        values := c.contentsAfter m.values
        deadlines := update m.deadlines key
          (if m.channel.stopped then none else ttl.map (m.now + ·)) }
      ((s.call c).2.rearm key ttl).settle := by
  have hc := (hr.call c).2
  have hlt : ∀ other time,
      ((s.call c).2.rearm key ttl).deadline? other = some time →
        ((s.call c).2.rearm key ttl).now < time := by
    intro other time htime
    rw [rearm_now]
    exact hc.settled.lt_of_deadline?_rearm hpos htime
  have hcoherent : ((s.call c).2.rearm key ttl).Coherent := hc.settled.coherent.rearm ttl
  have hstore : ((s.call c).2.rearm key ttl).settle.store = (s.call c).2.store := by
    rw [hcoherent.settle_store hlt, rearm_store]
  refine ⟨hcoherent.settled_settle, ?_, ?_, ?_, ?_, ?_⟩
  · rw [hstore, hc.faultless]
  · rw [hstore, hc.values]
  · intro other
    rw [hcoherent.deadline?_settle_of_lt hlt, hc.settled.coherent.deadline?_rearm, rearm_channel,
      hc.channel, hc.deadlines, hc.now]
    by_cases hk : key = other
    · subst hk
      simp
    · cases hstop : m.channel.stopped with
      | false => simp [hk, update_of_ne (Ne.symm hk)]
      | true =>
          have hnone : m.deadlines other = none :=
            (hr.deadlines other).symm.trans (hr.settled.ended (by rw [hr.channel, hstop]) other)
          simp [update_of_ne (Ne.symm hk), hnone]
  · rw [settle_now, rearm_now, hc.now]
  · rw [settle_channel, rearm_channel, hc.channel]

/-! ## Frames -/

theorem Refines.settle (hr : Refines m s) : Refines m s.settle := by
  rwa [hr.settled.settle_eq]

theorem Refines.authorized (hr : Refines m s) (secret : Option String) (identity : String)
    (run : TimedStore (Recorded Memory) → Reply × TimedStore (Recorded Memory)) :
    ∃ s', Refines m s' ∧ Dispatch.authorized secret identity run s =
      if m.admits secret identity then run s' else (.invalidAuth, s') := by
  cases secret with
  | none => exact ⟨s, hr, rfl⟩
  | some secret =>
      obtain ⟨houtcome, hget⟩ := hr.call (.get identity)
      refine ⟨_, hget, ?_⟩
      by_cases hmark : m.values identity = some secret
      · rw [Dispatch.authorized_of_marked run (by rw [houtcome]; simp [Call.outcomeOn, hmark])]
        simp [admits, hmark]
      · rw [Dispatch.authorized_of_not_marked run]
        · simp [admits, hmark]
        · rw [houtcome]
          cases hvalue : m.values identity with
          | none => simp [Call.outcomeOn, hvalue]
          | some value =>
              rw [hvalue] at hmark
              simpa [Call.outcomeOn, hvalue] using hmark

/-- What a command answers to a client with the mark decides what it answers to any client. -/
theorem Refines.guard (hr : Refines m s) (secret : Option String) (identity : String)
    {run : TimedStore (Recorded Memory) → Reply × TimedStore (Recorded Memory)}
    {answer : Reply × TtlMap}
    (hrun : ∀ s', Refines m s' → (run s').1 = answer.1 ∧ Refines answer.2 (run s').2.settle) :
    let expected := if m.admits secret identity then answer else (.invalidAuth, m)
    (Dispatch.authorized secret identity run s).1 = expected.1 ∧
      Refines expected.2 (Dispatch.authorized secret identity run s).2.settle := by
  obtain ⟨s', hr', hauthorized⟩ := hr.authorized secret identity run
  rw [hauthorized]
  by_cases hadmits : m.admits secret identity
  · simp only [hadmits, if_true]
    exact hrun s' hr'
  · simp only [hadmits]
    exact ⟨rfl, hr'.settle⟩

theorem Refines.set (hr : Refines m s) (key value : String) {ttl : Option Nat}
    (hpos : ∀ n ∈ ttl, 0 < n) :
    (Dispatch.set key value ttl s).1 = .ok ∧
      Refines (m.put key value ttl) (Dispatch.set key value ttl s).2.settle := by
  have happly : Store.call (.set key value) s.store =
      (.ok (), (s.call (.set key value)).2.store) :=
    Prod.ext (hr.call (.set key value)).1 rfl
  rw [Dispatch.set_eq, write_of_ok _ happly]
  refine ⟨rfl, ?_⟩
  have hms : ∀ ms ∈ ttl.map Dispatch.milliseconds, 0 < ms := by
    intro ms hms
    obtain ⟨n, hn, rfl⟩ := Option.map_eq_some_iff.mp hms
    exact Nat.mul_pos (hpos n hn) (by decide)
  have hwrote := hr.wrote (c := .set key value) key hms
  have htime : (ttl.map Dispatch.milliseconds).map (m.now + ·) =
      ttl.map fun seconds ↦ m.now + 1000 * seconds := by
    rw [Option.map_map]
    congr 1
    funext seconds
    simp [Dispatch.milliseconds, Nat.mul_comm]
  rw [htime] at hwrote
  exact hwrote

theorem Refines.get (hr : Refines m s) (key : String) :
    (Dispatch.get key s).1 = (m.values key).elim .error .value ∧
      Refines m (Dispatch.get key s).2.settle := by
  obtain ⟨houtcome, hget⟩ := hr.call (.get key)
  refine ⟨?_, by rw [Dispatch.get_snd]; exact hget.settle⟩
  unfold Dispatch.get
  rcases hcall : s.call (.get key) with ⟨e | value, s'⟩ <;> rw [hcall] at houtcome <;>
    cases hvalue : m.values key <;> simp_all [Call.outcomeOn]

theorem Refines.del (hr : Refines m s) (key : String) :
    let answer := if (m.values key).isSome then (.ok, m.remove key) else (.error, m)
    (Dispatch.del key s).1 = answer.1 ∧ Refines answer.2 (Dispatch.del key s).2.settle := by
  obtain ⟨houtcome, hdelete⟩ := hr.call (.delete key)
  rw [Dispatch.del_eq]
  cases hvalue : m.values key with
  | none =>
      have happly : Store.call (.delete key) s.store =
          (.error (.notFound key), (s.call (.delete key)).2.store) :=
        Prod.ext (by simpa [Call.outcomeOn, hvalue] using houtcome) rfl
      have hsame : { m with values := (Call.delete key).contentsAfter m.values } = m := by
        simp [Call.contentsAfter, ← hvalue]
      rw [write_of_error none happly]
      rw [hsame] at hdelete
      exact ⟨rfl, hdelete.settle⟩
  | some value =>
      have happly : Store.call (.delete key) s.store =
          (.ok (), (s.call (.delete key)).2.store) :=
        Prod.ext (by simpa [Call.outcomeOn, hvalue] using houtcome) rfl
      have hpos : ∀ ms ∈ (none : Option Nat), 0 < ms := by simp
      have hwrote := hr.wrote (c := .delete key) key hpos
      rw [write_of_ok none happly]
      refine ⟨rfl, ?_⟩
      simpa [remove, Call.contentsAfter] using hwrote

theorem Refines.run (hr : Refines m s) (secret : Option String) (identity : String) (c : Command)
    (hpos : ∀ key value n, c = .set key value (some n) → 0 < n) :
    (Dispatch.run secret identity c s).1 = (m.obey secret identity c).1 ∧
      Refines (m.obey secret identity c).2 (Dispatch.run secret identity c s).2.settle := by
  cases c with
  | auth candidate =>
      cases secret with
      | none => exact ⟨rfl, hr.settle⟩
      | some secret =>
          obtain ⟨houtcome, hmark⟩ := hr.call (.auth identity secret)
          rw [Dispatch.run, Dispatch.authenticate_some, obey]
          by_cases hc : candidate = secret
          · simp only [hc, if_true]
            refine ⟨?_, hmark.settle⟩
            rw [houtcome]
            rfl
          · simp only [hc, if_false]
            exact ⟨trivial, hr.settle⟩
  | set key value ttl =>
      refine hr.guard secret identity fun s' hr' ↦ ?_
      exact hr'.set key value fun n hn ↦ hpos key value n (by rw [hn])
  | get key => exact hr.guard secret identity fun s' hr' ↦ hr'.get key
  | del key => exact hr.guard secret identity fun s' hr' ↦ hr'.del key

theorem Refines.execute (hr : Refines m s) (secret : Option String) (identity : String)
    (frame : Bytes) :
    (Dispatch.execute secret identity frame s).1 = (m.execute secret identity frame).1 ∧
      Refines (m.execute secret identity frame).2
        (Dispatch.execute secret identity frame s).2.settle := by
  unfold TtlMap.execute
  cases hparse : Command.parse frame with
  | error e =>
      rw [Dispatch.execute_of_error hparse]
      exact ⟨rfl, hr.settle⟩
  | ok c =>
      rw [Dispatch.execute_of_ok hparse]
      refine hr.run secret identity c ?_
      rintro key value n rfl
      exact Command.pos_of_parse hparse

/-! ## Marks, time and signals -/

theorem Refines.revoke (hr : Refines m s) (secret : Option String) (identity : String) :
    Refines (if secret.isSome then m.unmark identity else m)
      (Dispatch.revoke secret identity s) := by
  unfold Dispatch.revoke
  split
  · exact (hr.call (.delete identity)).2
  · exact hr

theorem contents_fire (hs : s.Coherent) (hf : s.store.faults = fun _ ↦ none) (token : Nat)
    (key : String) :
    (s.fire token).store.faults = (fun _ ↦ none) ∧
      (s.fire token).store.store.contents key =
        if s.armed[key]? = some token then none else s.store.store.contents key := by
  obtain ⟨own, hown, hfire⟩ | ⟨hnone, hfire⟩ := hs.fire_cases token
  · rw [hfire]
    refine ⟨(Recorded.faults_call _ _).trans hf, ?_⟩
    simp only [(Recorded.call_of_faultless hf (.delete own)).2, Call.contentsAfter]
    by_cases hk : own = key
    · subst hk
      simp [hown]
    · have hother : s.armed[key]? ≠ some token := fun hkey ↦ hk (hs.key_unique hown hkey)
      simp [update_of_ne (Ne.symm hk), hother]
  · rw [hfire]
    exact ⟨hf, by simp [hnone key]⟩

theorem contents_fireAll (hs : s.Coherent) (hf : s.store.faults = fun _ ↦ none)
    (tokens : List Nat) (key : String) :
    (s.fireAll tokens).store.faults = (fun _ ↦ none) ∧
      (s.fireAll tokens).store.store.contents key =
        if ∃ token ∈ tokens, s.armed[key]? = some token then none
        else s.store.store.contents key := by
  induction tokens generalizing s with
  | nil => simpa using hf
  | cons token tokens ih =>
      obtain ⟨hfaults, hcontents⟩ := contents_fire hs hf token key
      obtain ⟨hrest, hall⟩ := ih hs.fire hfaults
      refine ⟨hrest, ?_⟩
      rw [fireAll_cons, hall, hs.getElem?_fire_armed, hcontents]
      by_cases hkey : s.armed[key]? = some token <;> simp [hkey]

/-- Settling takes away the values whose deadlines have passed, unless there is a shutdown. -/
theorem contents_settle (hs : s.Coherent) (hf : s.store.faults = fun _ ↦ none) (key : String) :
    s.settle.store.faults = (fun _ ↦ none) ∧
      s.settle.store.store.contents key =
        if s.channel.stopped = false ∧ (s.deadline? key).any (· ≤ s.now) then none
        else s.store.store.contents key := by
  cases hstop : s.channel.stopped with
  | true =>
      rw [settle_of_stopped hstop, if_neg (by simp)]
      exact ⟨hf, rfl⟩
  | false =>
      have hdue : (∃ token ∈ s.due, s.armed[key]? = some token) ↔
          (s.deadline? key).any (· ≤ s.now) = true := by
        rw [hs.armed_due_iff]
        cases hd : s.deadline? key <;> simp
      rw [settle_of_not_stopped hstop]
      simpa [hdue] using contents_fireAll hs hf s.due key

/-- The same store at a later time, once it has settled. -/
theorem Refines.later {s' : TimedStore (Recorded Memory)} {ms : Nat} (hr : Refines m s)
    (hs : s'.Coherent) (hstore : s'.store = s.store) (hchannel : s'.channel = s.channel)
    (hdeadlines : ∀ key : String, s'.deadline? key = s.deadline? key)
    (hnow : s'.now = s.now + ms) : Refines (m.elapse ms) s'.settle := by
  have hfaultless : s'.store.faults = fun _ ↦ none := by rw [hstore, hr.faultless]
  have hended : s.channel.stopped = true → ∀ key, m.deadlines key = none := by
    intro hstop key
    rw [← hr.deadlines, hr.settled.ended hstop]
  refine ⟨hs.settled_settle, (contents_settle hs hfaultless "").1, ?_, ?_, ?_, ?_⟩
  · funext key
    rw [(contents_settle hs hfaultless key).2, hdeadlines, hr.deadlines, hnow, hr.now, hstore,
      hr.values, hchannel]
    cases hstop : s.channel.stopped with
    | true => simp [TtlMap.elapse, expired, hended hstop key]
    | false =>
        by_cases htime : (m.deadlines key).any (· ≤ m.now + ms) <;>
          simp [TtlMap.elapse, expired, htime]
  · intro key
    rw [hs.deadline?_settle, hdeadlines, hr.deadlines, hnow, hr.now, hchannel]
    cases hstop : s.channel.stopped with
    | true => simp [TtlMap.elapse, hended hstop key]
    | false =>
        cases htime : m.deadlines key with
        | none => simp [TtlMap.elapse, htime]
        | some time =>
            by_cases hle : time ≤ m.now + ms
            · simp [TtlMap.elapse, expired, htime, hle]
            · simp [TtlMap.elapse, expired, htime, hle, Nat.lt_of_not_le hle]
  · rw [settle_now, hnow, hr.now]
    rfl
  · rw [settle_channel, hchannel, hr.channel]
    rfl

theorem Refines.elapse (hr : Refines m s) (ms : Nat) : Refines (m.elapse ms) (s.advance ms) := by
  have hs : Coherent { s with now := s.now + ms } := hr.settled.coherent.setNow _
  exact hr.later hs rfl rfl (fun _ ↦ rfl) rfl

theorem Refines.signal (hr : Refines m s) (sig : Signal) :
    Refines (m.signal sig) (s.signal sig) := by
  have hs : Coherent { s with channel := s.channel.after sig } :=
    hr.settled.coherent.setChannel _
  have hlt : ∀ key time,
      deadline? key { s with channel := s.channel.after sig } = some time → s.now < time :=
    fun _ _ ↦ hr.settled.not_passed
  have hstore := hs.settle_store hlt
  refine ⟨hs.settled_settle, ?_, ?_, ?_, ?_, ?_⟩
  · exact (congrArg Recorded.faults hstore).trans hr.faultless
  · exact (congrArg (fun r ↦ r.store.contents) hstore).trans hr.values
  · intro key
    refine (hs.deadline?_settle_of_lt hlt key).trans ?_
    have hkey : deadline? key { s with channel := s.channel.after sig } = m.deadlines key :=
      hr.deadlines key
    rw [hkey, hr.channel]
    rfl
  · exact settle_now.trans hr.now
  · exact settle_channel.trans (congrArg (·.after sig) hr.channel)

/-! ## Runs -/

theorem Refines.step (hr : Refines m s) (secret : Option String) (e : Event) :
    (Dispatch.step secret e.step s).1 = (m.step secret e).1 ∧
      Refines (m.step secret e).2 (Dispatch.step secret e.step s).2 := by
  cases e with
  | frame identity bytes =>
      obtain ⟨hreply, hnext⟩ := hr.execute secret identity bytes
      exact ⟨congrArg Dispatch.Answer.reply hreply, hnext⟩
  | revoke identity => exact ⟨rfl, hr.revoke secret identity⟩
  | advance ms => exact ⟨rfl, hr.elapse ms⟩
  | signal sig => exact ⟨rfl, hr.signal sig⟩

theorem Refines.runSteps (hr : Refines m s) (secret : Option String) (es : List Event) :
    (Dispatch.runSteps secret (es.map Event.step) s).1 = (m.run secret es).1 ∧
      Refines (m.run secret es).2 (Dispatch.runSteps secret (es.map Event.step) s).2 := by
  induction es generalizing m s with
  | nil => exact ⟨rfl, hr⟩
  | cons e es ih =>
      obtain ⟨hanswer, hnext⟩ := hr.step secret e
      obtain ⟨hanswers, hlast⟩ := ih hnext
      simp only [List.map_cons, Dispatch.runSteps, TtlMap.run]
      exact ⟨by rw [hanswer, hanswers], hlast⟩

theorem Refines.start (store : Memory) (now : Nat) (channel : Channel) :
    Refines { values := store.contents, now, channel } { store := { store }, now, channel } where
  settled := .empty _ now channel
  faultless := rfl
  values := rfl
  deadlines := by simp [deadline?]
  now := rfl
  channel := rfl

end TtlMap

/-- A dispatcher that starts without timers on a store in memory answers every run of frames,
revocations, pauses and signals as a map of values and deadlines does.  At the end the store holds
the values of this map, and its pending timers are the deadlines of the map.  As every beginning of
a run is a run, the same is true after each step. -/
theorem runSteps_eq_ttlMap_run (secret : Option String) (store : Memory) (now : Nat)
    (channel : Channel) (es : List TtlMap.Event) :
    let s := Dispatch.runSteps secret (es.map TtlMap.Event.step)
      { store := { store }, now, channel }
    let m := TtlMap.run secret es { values := fun key ↦ store.values[key]?, now, channel }
    s.1 = m.1 ∧
      (∀ key : String, s.2.store.store.values[key]? = m.2.values key) ∧
      (∀ key time, m.2.deadlines key = some time ↔
        ∃ (token : Nat) (t : Timer), s.2.timers[token]? = some t ∧ t.key = key ∧
          t.status = .pending ∧ t.deadline = time) ∧
      s.2.now = m.2.now := by
  obtain ⟨hanswers, hr⟩ := (TtlMap.Refines.start store now channel).runSteps secret es
  refine ⟨hanswers, congrFun hr.values, ?_, hr.now⟩
  intro key time
  refine (iff_of_eq (congrArg (· = some time) (hr.deadlines key).symm)).trans ?_
  simp only [hr.settled.coherent.deadline?_eq_some_iff, Timer.until?_eq_some]

end KvServer
