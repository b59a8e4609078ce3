import KvServer.Proofs.Expiry.Settling
import KvServer.Proofs.Store.Contents
import Mathlib.Data.List.Induction

/-!
# The latest write decides

Whoever writes to a store with timers, and every timer that runs out, holds the lock while it does
so.  A race is any order of such moves: writes that succeed or fail, and timers that run out at any
later time, also when they have been cancelled before they got the lock.  A timer that runs out
deletes its key exactly if the latest successful write to the key has armed it and it has not run
out before (`fire_deletes_iff_latest_write`).

The history of a race says which token each write drew and which calls each timer made.  The
induction over a race carries `Reflects`: the armed map holds for each key the token that the
latest successful write drew, unless that timer has run, and tokens are drawn in order.
-/

namespace KvServer.Race

open TimedStore

variable {σ : Type}

/-- What a scheduler, its timers and its surroundings do one after the other. -/
inductive Move (σ : Type)
  /-- A write to a key, which succeeds or fails as `apply` does. -/
  | write (key : String) (ttl : Option Nat)
      (apply : Recorded σ → Except StoreError Unit × Recorded σ)
  | fire (token : Nat)
  /-- The timer of a token is cancelled from outside. -/
  | abort (token : Nat)
  | wait (ms : Nat)
  | signal (sig : Signal)

/-- What is seen of a move. -/
inductive Entry
  /-- The outcome of a write: the token that it drew, if any. -/
  | wrote (key : String) (o : Except StoreError (Option Nat))
  /-- The calls that a timer made on the store when it ran out. -/
  | ran (token : Nat) (calls : List Note)
  | idle

/-- The tokens drawn by the successful writes to a key, in order. -/
def writesTo (key : String) (h : List Entry) : List (Option Nat) :=
  h.filterMap fun
    | .wrote k (.ok token?) => if k = key then some token? else none
    | _ => none

def runs (h : List Entry) : List Nat :=
  h.filterMap fun
    | .ran token _ => some token
    | _ => none

/-- The latest successful write to a key drew this token, and its timer has not run out yet. -/
def Current (h : List Entry) (key : String) (token : Nat) : Prop :=
  (writesTo key h).getLast? = some (some token) ∧ token ∉ runs h

def callsBy (token : Nat) (h : List Entry) : List Note :=
  h.flatMap fun
    | .ran i calls => if i = token then calls else []
    | _ => []

def callsSince (before after : Recorded σ) : List Note :=
  (after.notes.take (after.notes.length - before.notes.length)).reverse

/-- The calls that the timer of a token makes on the store when it runs out. -/
def callsOf [Store σ] (token : Nat) (s : TimedStore (Recorded σ)) : List Note :=
  callsSince s.store (s.fire token).store

def move [Store σ] (m : Move σ) (s : TimedStore (Recorded σ)) : Entry × TimedStore (Recorded σ) :=
  match m with
  | .write key ttl apply =>
      let (o, s) := s.write key ttl apply
      (.wrote key o, s)
  | .fire token =>
      -- no timer can run that has not been armed
      if token < s.timers.length then (.ran token (callsOf token s), s.fire token) else (.idle, s)
  | .abort token => (.idle, s.finish .cancelled token)
  | .wait ms => (.idle, { s with now := s.now + ms })
  | .signal sig => (.idle, { s with channel := s.channel.after sig })

def race [Store σ] : List (Move σ) → TimedStore (Recorded σ) → List Entry × TimedStore (Recorded σ)
  | [], s => ([], s)
  | m :: ms, s =>
      let (e, s) := move m s
      let (es, s) := race ms s
      (e :: es, s)

/-! ## Histories -/

variable {h later : List Entry} {e : Entry} {key other : String} {token : Nat}

@[simp] theorem writesTo_append : writesTo key (h ++ later) = writesTo key h ++ writesTo key later :=
  List.filterMap_append

@[simp] theorem runs_append : runs (h ++ later) = runs h ++ runs later := List.filterMap_append

@[simp] theorem callsBy_append : callsBy token (h ++ later) = callsBy token h ++ callsBy token later :=
  List.flatMap_append

theorem writesTo_cons : writesTo key (e :: h) = writesTo key [e] ++ writesTo key h :=
  writesTo_append (h := [e])

@[simp] theorem writesTo_nil : writesTo key [] = [] := rfl

@[simp] theorem writesTo_wrote_ok (token? : Option Nat) :
    writesTo key [.wrote other (.ok token?)] = if other = key then [token?] else [] := by
  by_cases hk : other = key <;> simp [writesTo, hk]

@[simp] theorem writesTo_wrote_error (e : StoreError) :
    writesTo key [.wrote other (.error e)] = [] := rfl

@[simp] theorem writesTo_ran (calls : List Note) : writesTo key [.ran token calls] = [] := rfl

@[simp] theorem writesTo_idle : writesTo key [.idle] = [] := rfl

@[simp] theorem runs_wrote (o : Except StoreError (Option Nat)) : runs [.wrote key o] = [] := rfl

@[simp] theorem runs_ran (calls : List Note) : runs [.ran token calls] = [token] := rfl

@[simp] theorem runs_idle : runs [.idle] = [] := rfl

@[simp] theorem callsBy_wrote (o : Except StoreError (Option Nat)) :
    callsBy token [.wrote key o] = [] := rfl

@[simp] theorem callsBy_ran {i : Nat} (calls : List Note) :
    callsBy token [.ran i calls] = if i = token then calls else [] := by
  simp [callsBy]

@[simp] theorem callsBy_idle : callsBy token [.idle] = [] := rfl

theorem exists_wrote_of_mem_writesTo (hdrawn : some token ∈ writesTo key h) :
    ∃ before after, h = before ++ .wrote key (.ok (some token)) :: after := by
  obtain ⟨e, he, htoken⟩ := List.mem_filterMap.mp hdrawn
  obtain ⟨before, after, rfl⟩ := List.append_of_mem he
  refine ⟨before, after, ?_⟩
  cases e with
  | wrote k o =>
      cases o with
      | error e => cases htoken
      | ok token? =>
          by_cases hk : k = key
          · simp only [hk, if_true, Option.some.injEq] at htoken
            rw [hk, htoken]
          · simp [hk] at htoken
  | ran => cases htoken
  | idle => cases htoken

/-- An entry agrees with the history before it: a write draws a token of its own, and a timer
deletes its key if it is current and else does nothing. -/
def Honest (h : List Entry) : Entry → Prop
  | .wrote key (.ok (some token)) => some token ∉ writesTo key h
  | .ran token calls =>
      (∃ key, some token ∈ writesTo key h) ∧
        ∀ key, some token ∈ writesTo key h →
          (Current h key token ∧ ∃ error?, calls = [⟨.delete key, error?⟩]) ∨
            (¬ Current h key token ∧ calls = [])
  | _ => True

/-- Every entry agrees with the history before it. -/
def Faithful (h : List Entry) : Prop := ∀ before e later, h = before ++ e :: later → Honest before e

theorem Faithful.nil : Faithful [] := by
  intro before e later hh
  simp at hh

theorem Faithful.snoc (hf : Faithful h) (he : Honest h e) : Faithful (h ++ [e]) := by
  intro before e' later hh
  rcases List.eq_nil_or_concat later with rfl | ⟨later', last, rfl⟩
  · obtain ⟨rfl, hlast⟩ := List.append_inj' hh rfl
    cases hlast
    exact he
  · rw [List.concat_eq_append, ← List.cons_append, ← List.append_assoc] at hh
    exact hf before e' later' (List.append_inj' hh rfl).1

theorem Faithful.of_append (hf : Faithful (h ++ later)) : Faithful h := by
  intro before e after hh
  exact hf before e (after ++ later) (by simp [hh])

/-- The timer of a token makes no call after it has run out. -/
theorem Faithful.length_callsBy (hf : Faithful h) (token : Nat) :
    (token ∉ runs h → callsBy token h = []) ∧ (callsBy token h).length ≤ 1 := by
  induction h using List.reverseRecOn with
  | nil => simp [callsBy]
  | append_singleton h e ih =>
      obtain ⟨hnone, hone⟩ := ih hf.of_append
      have he := hf h e [] rfl
      cases e with
      | ran i calls =>
          by_cases hi : i = token
          · subst hi
            obtain ⟨⟨key, hdrawn⟩, hcalls⟩ := he
            refine ⟨by simp, ?_⟩
            rcases hcalls key hdrawn with ⟨hcurrent, error?, rfl⟩ | ⟨-, rfl⟩
            · simp [hnone hcurrent.2]
            · simpa using hone
          · simpa [hi, Ne.symm hi] using ⟨hnone, hone⟩
      | wrote key o => simpa using ⟨hnone, hone⟩
      | idle => simpa using ⟨hnone, hone⟩

/-- A timer makes no call once another write to its key has succeeded. -/
theorem Faithful.superseded (hf : Faithful h) {before between : List Entry}
    {token? : Option Nat} {calls : List Note}
    (hh : h = before ++ .wrote key (.ok token?) :: between ++ .ran token calls :: later)
    (hdrawn : some token ∈ writesTo key before) : calls = [] := by
  obtain ⟨-, hcalls⟩ := hf _ _ _ hh
  rcases hcalls key (by simp [hdrawn]) with ⟨hcurrent, -⟩ | ⟨-, hnone⟩
  · -- the token would have been drawn a second time
    have hlast : some token ∈ writesTo key (.wrote key (.ok token?) :: between) := by
      have hmem := hcurrent.1
      rw [writesTo_append, List.getLast?_append, writesTo_cons, writesTo_wrote_ok, if_pos rfl,
        List.singleton_append, List.getLast?_cons, Option.some_or] at hmem
      rw [writesTo_cons, writesTo_wrote_ok, if_pos rfl, List.singleton_append]
      exact List.mem_of_getLast? (List.getLast?_cons.trans hmem)
    obtain ⟨pre, post, hsplit⟩ := exists_wrote_of_mem_writesTo hlast
    have hfresh : some token ∉ writesTo key (before ++ pre) :=
      hf (before ++ pre) (.wrote key (.ok (some token))) (post ++ .ran token calls :: later)
        (by rw [hh, List.append_assoc, hsplit]; simp)
    simp [hdrawn] at hfresh
  · exact hnone

/-! ## Races -/

variable {s : TimedStore (Recorded σ)}

/-- A history tells the tokens drawn so far and, for each key, which of them is armed. -/
structure Reflects (h : List Entry) (s : TimedStore (Recorded σ)) : Prop where
  coherent : s.Coherent
  armed_iff : ∀ {key : String} {token : Nat}, s.armed[key]? = some token ↔ Current h key token
  drawn_iff : ∀ {key : String} {token : Nat},
    some token ∈ writesTo key h ↔ (s.timers[token]?).map Timer.key = some key
  run_lt : ∀ {token : Nat}, token ∈ runs h → token < s.timers.length

theorem Reflects.start (store : Recorded σ) (now : Nat) (channel : Channel) :
    Reflects [] { store, now, channel } where
  coherent := .empty store now channel
  armed_iff := by simp [Current, writesTo]
  drawn_iff := by simp [writesTo]
  run_lt := by simp [runs]

/-- A timer belongs to the key whose write drew its token. -/
theorem Reflects.not_armed (hr : Reflects h s) (hdrawn : some token ∈ writesTo key h)
    (hcurrent : ¬ Current h key token) (other : String) : s.armed[other]? ≠ some token := by
  intro harmed
  obtain ⟨t, ht, rfl⟩ := hr.coherent.key_of_armed harmed
  have hkey := hr.drawn_iff.mp hdrawn
  rw [ht] at hkey
  cases hkey
  exact hcurrent (hr.armed_iff.mp harmed)

theorem Reflects.same {s' : TimedStore (Recorded σ)} {e : Entry} (hr : Reflects h s)
    (hwrites : ∀ key, writesTo key [e] = []) (hruns : runs [e] = []) (hs : s'.Coherent)
    (harmed : s'.armed = s.armed) (hlength : s'.timers.length = s.timers.length)
    (hkeys : ∀ i : Nat, (s'.timers[i]?).map Timer.key = (s.timers[i]?).map Timer.key) :
    Reflects (h ++ [e]) s' where
  coherent := hs
  armed_iff := by
    intro key token
    simpa [harmed, Current, hwrites, hruns] using hr.armed_iff
  drawn_iff := by
    intro key token
    simpa [hwrites, hkeys] using hr.drawn_iff
  run_lt := by
    intro token hrun
    rw [hlength]
    exact hr.run_lt (by simpa [hruns] using hrun)

theorem Reflects.not_drawn (hr : Reflects h s) (key : String) :
    some s.timers.length ∉ writesTo key h := by
  intro hdrawn
  have hkey := hr.drawn_iff.mp hdrawn
  simp at hkey

theorem Reflects.wrote {store : Recorded σ} (hr : Reflects h s) (key : String)
    (ttl : Option Nat) :
    Reflects (h ++ [.wrote key (.ok (ttl.map fun _ ↦ s.timers.length))])
      (({ s with store } : TimedStore (Recorded σ)).rearm key ttl) where
  coherent := (hr.coherent.setStore store).rearm ttl
  armed_iff := by
    intro other token
    rw [getElem?_rearm_armed]
    by_cases hk : key = other
    · subst hk
      simp only [if_true, Current, writesTo_append, writesTo_wrote_ok, runs_append, runs_wrote,
        List.append_nil, List.getLast?_append, List.getLast?_singleton, Option.some_or,
        Option.some.injEq]
      refine ⟨fun htoken ↦ ⟨htoken, fun hrun ↦ ?_⟩, And.left⟩
      -- the token is new, so its timer cannot have run
      obtain ⟨-, -, rfl⟩ := Option.map_eq_some_iff.mp htoken
      exact absurd (hr.run_lt hrun) (Nat.lt_irrefl _)
    · simpa [hk, Current] using hr.armed_iff
  drawn_iff := by
    intro other token
    rw [map_key_rearm, writesTo_append, writesTo_wrote_ok]
    have hdrawn : some token ∈ writesTo other h ↔
      (s.timers[token]?).map Timer.key = some other := hr.drawn_iff
    by_cases hnew : token = s.timers.length
    · subst hnew
      have hfresh := hr.not_drawn other
      by_cases hk : key = other
      · cases ttl <;> simp [hk, hfresh]
      · cases ttl <;> simp [hk, hfresh]
    · have hne : ttl.map (fun _ ↦ s.timers.length) ≠ some token := by
        cases ttl <;> simp [Ne.symm hnew]
      by_cases hk : key = other
      · simp [hk, hnew, Ne.symm hne, hdrawn]
      · simp [hk, hnew, hdrawn]
  run_lt := by
    intro token hrun
    have hlt : token < s.timers.length := hr.run_lt (by simpa using hrun)
    rw [length_rearm_timers]
    exact Nat.lt_add_right _ hlt

variable [Store σ]

theorem callsOf_of_armed (hs : s.Coherent) (harmed : s.armed[key]? = some token) :
    ∃ error?, callsOf token s = [⟨.delete key, error?⟩] := by
  refine ⟨(Store.call (.delete key) s.store).1.error?, ?_⟩
  rw [callsOf, hs.fire_of_armed harmed, callsSince, Recorded.notes_call]
  simp

theorem callsOf_of_not_armed (h : ∀ key : String, s.armed[key]? ≠ some token) :
    callsOf token s = [] := by
  rw [callsOf, fire_of_not_armed h, callsSince]
  simp

theorem Reflects.calls (hr : Reflects h s) (hdrawn : some token ∈ writesTo key h) :
    (Current h key token ∧ ∃ error?, callsOf token s = [⟨.delete key, error?⟩]) ∨
      (¬ Current h key token ∧ callsOf token s = []) := by
  by_cases hcurrent : Current h key token
  · exact Or.inl ⟨hcurrent, callsOf_of_armed hr.coherent (hr.armed_iff.mpr hcurrent)⟩
  · exact Or.inr ⟨hcurrent, callsOf_of_not_armed (hr.not_armed hdrawn hcurrent)⟩

theorem Reflects.ran (hr : Reflects h s) (hlt : token < s.timers.length) (calls : List Note) :
    Reflects (h ++ [.ran token calls]) (s.fire token) where
  coherent := hr.coherent.fire
  armed_iff := by
    intro key i
    have harmed : s.armed[key]? = some i ↔ Current h key i := hr.armed_iff
    rw [hr.coherent.getElem?_fire_armed]
    simp only [Current, writesTo_append, writesTo_ran, List.append_nil, runs_append, runs_ran,
      List.mem_append, List.mem_singleton, not_or] at harmed ⊢
    rw [← and_assoc, ← harmed]
    by_cases hkey : s.armed[key]? = some token
    · simp [hkey, eq_comm]
    · have hne : s.armed[key]? = some i → i ≠ token := by
        rintro hi rfl
        exact hkey hi
      simpa [hkey] using hne
  drawn_iff := by
    intro key i
    rw [hr.coherent.fire_timers, map_key_finish]
    simpa using hr.drawn_iff
  run_lt := by
    intro i hrun
    rw [hr.coherent.fire_timers, length_finish_timers]
    simp only [runs_append, runs_ran, List.mem_append, List.mem_singleton] at hrun
    rcases hrun with hrun | rfl
    · exact hr.run_lt hrun
    · exact hlt

/-- One move keeps the history true and faithful. -/
theorem Reflects.move (hr : Reflects h s) (m : Move σ) :
    Reflects (h ++ [(Race.move m s).1]) (Race.move m s).2 ∧ Honest h (Race.move m s).1 := by
  cases m with
  | write key ttl apply =>
      rcases happly : apply s.store with ⟨e | ⟨⟩, store⟩
      · simp only [Race.move, write_of_error ttl happly]
        exact ⟨hr.same (by simp) (by simp) (hr.coherent.setStore store) rfl rfl fun _ ↦ rfl,
          trivial⟩
      · simp only [Race.move, write_of_ok ttl happly]
        refine ⟨hr.wrote key ttl, ?_⟩
        cases ttl with
        | none => trivial
        | some ttl => exact hr.not_drawn key
  | fire token =>
      by_cases hlt : token < s.timers.length
      · simp only [Race.move, if_pos hlt]
        refine ⟨hr.ran hlt _, ?_, fun key ↦ hr.calls⟩
        have ht := List.getElem?_eq_getElem hlt
        exact ⟨_, hr.drawn_iff.mpr (by rw [ht]; rfl)⟩
      · simp only [Race.move, if_neg hlt]
        exact ⟨hr.same (by simp) (by simp) hr.coherent rfl rfl fun _ ↦ rfl, trivial⟩
  | abort token =>
      exact ⟨hr.same (by simp [Race.move]) (by simp [Race.move]) (hr.coherent.finish (by simp)) rfl
        length_finish_timers map_key_finish, trivial⟩
  | wait ms =>
      exact ⟨hr.same (by simp [Race.move]) (by simp [Race.move]) (hr.coherent.setNow _) rfl rfl
        fun _ ↦ rfl, trivial⟩
  | signal sig =>
      exact ⟨hr.same (by simp [Race.move]) (by simp [Race.move]) (hr.coherent.setChannel _) rfl rfl
        fun _ ↦ rfl, trivial⟩

/-- A race keeps the history true and faithful. -/
theorem Reflects.race (hr : Reflects h s) (hf : Faithful h) (ms : List (Move σ)) :
    Reflects (h ++ (Race.race ms s).1) (Race.race ms s).2 ∧
      Faithful (h ++ (Race.race ms s).1) := by
  induction ms generalizing h s with
  | nil => simpa [Race.race] using ⟨hr, hf⟩
  | cons m ms ih =>
      obtain ⟨hmove, hhonest⟩ := hr.move m
      have hrest := ih hmove (hf.snoc hhonest)
      simpa [Race.race] using hrest

/-- In every race on a new scheduler, a timer that runs out deletes the key whose write drew its
token exactly if that write is the latest that has succeeded on the key and the timer has not run
out before; else it makes no call.  So a timer makes one call at most in a whole race, and none
once another write to its key has succeeded; a write that fails leaves all timers armed. -/
theorem fire_deletes_iff_latest_write (store : Recorded σ) (now : Nat) (channel : Channel)
    (ms : List (Move σ)) :
    let h := (race ms { store, now, channel }).1
    let s := (race ms { store, now, channel }).2
    (∀ key token, some token ∈ writesTo key h →
      ((∃ error?, callsOf token s = [⟨.delete key, error?⟩]) ↔
        (writesTo key h).getLast? = some (some token) ∧ token ∉ runs h) ∧
      ((∃ error?, callsOf token s = [⟨.delete key, error?⟩]) ∨ callsOf token s = [])) ∧
    (∀ token, (callsBy token h).length ≤ 1) ∧
    (∀ before between later key token token? calls,
      h = before ++ .wrote key (.ok token?) :: between ++ .ran token calls :: later →
        some token ∈ writesTo key before → calls = []) ∧
    ∀ key ttl apply e, (s.write key ttl apply).1 = .error e →
      (s.write key ttl apply).2.armed = s.armed ∧ (s.write key ttl apply).2.timers = s.timers := by
  obtain ⟨hr, hf⟩ := (Reflects.start store now channel).race .nil ms
  rw [List.nil_append] at hr hf
  refine ⟨?_, fun token ↦ (hf.length_callsBy token).2, ?_, ?_⟩
  · intro key token hdrawn
    rcases hr.calls hdrawn with ⟨hcurrent, hcalls⟩ | ⟨hcurrent, hcalls⟩
    · exact ⟨⟨fun _ ↦ hcurrent, fun _ ↦ hcalls⟩, Or.inl hcalls⟩
    · refine ⟨⟨?_, fun h ↦ absurd h hcurrent⟩, Or.inr hcalls⟩
      rintro ⟨error?, hdelete⟩
      simp [hcalls] at hdelete
  · intro before between later key token token? calls hh hdrawn
    exact hf.superseded hh hdrawn
  · intro key ttl apply e herror
    rcases happly : apply (race ms { store, now, channel }).2.store with ⟨e' | ⟨⟩, store'⟩
    · rw [write_of_error ttl happly]
      exact ⟨rfl, rfl⟩
    · rw [write_of_ok ttl happly] at herror
      cases herror

end KvServer.Race
