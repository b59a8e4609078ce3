import KvServer.Proofs.Command.Rendering
import KvServer.Proofs.Dispatch.MarkExpiry

/-!
# Values that survive

A `SET` without a time to live leaves its value until another command decides on the key, however
much time passes.  A frame can carry a key and a value exactly if they have no white space at all.
A token without white space of ASCII may have wider one in it, such as a no-break space: it breaks
there into two fields, and no frame can carry it (`value_survives_iff_narrow`).
-/

namespace KvServer

namespace Text

/-- The code points of white space in ASCII. -/
def asciiSpace : List Nat := [0x09, 0x0A, 0x0B, 0x0C, 0x0D, 0x20]

/-- The code points of white space beyond ASCII. -/
def wideSpace : List Nat := whiteSpace.filter (0x80 ≤ ·)

/-- No character of a text is among these code points. -/
def Without (points : List Nat) (cs : List Char) : Prop := ∀ c ∈ cs, c.toNat ∉ points

-- the characters of the list are tried, not all characters there are
instance (points : List Nat) (cs : List Char) : Decidable (Without points cs) :=
  List.decidableBAll (fun c : Char ↦ c.toNat ∉ points) cs

/-- A token is not empty and has no white space of ASCII. -/
structure IsToken (w : List Char) : Prop where
  nonempty : w ≠ []
  free : Without asciiSpace w

theorem mem_whiteSpace_iff {n : Nat} : n ∈ whiteSpace ↔ n ∈ asciiSpace ∨ n ∈ wideSpace := by
  have hascii : ∀ n ∈ whiteSpace, n < 0x80 → n ∈ asciiSpace := by decide
  have hwhite : ∀ n ∈ asciiSpace, n ∈ whiteSpace := by decide
  rw [wideSpace, List.mem_filter, decide_eq_true_eq]
  constructor
  · intro hn
    rcases Nat.lt_or_ge n 0x80 with hlt | hge
    · exact Or.inl (hascii n hn hlt)
    · exact Or.inr ⟨hn, hge⟩
  · rintro (hn | ⟨hn, -⟩)
    · exact hwhite n hn
    · exact hn

theorem IsToken.isField_iff {w : List Char} (h : IsToken w) :
    IsField w ↔ Without wideSpace w := by
  constructor
  · intro hfield c hc hwide
    exact hfield.free c hc (mem_whiteSpace_iff.mpr (Or.inr hwide))
  · intro hnarrow
    refine ⟨h.nonempty, fun c hc hwhite ↦ ?_⟩
    rcases mem_whiteSpace_iff.mp hwhite with hascii | hwide
    · exact h.free c hc hascii
    · exact hnarrow c hc hwide

end Text

open Text

namespace Command

variable {key value : String}

/-- A frame carries a key and a value only if they are fields. -/
theorem isField_of_parse_set {frame : Bytes} {expiry : Option Nat}
    (h : parse frame = .ok (.set key value expiry)) :
    IsField key.toList ∧ IsField value.toList := by
  obtain ⟨hkey, hvalue, -⟩ := proper_of_parse h
  exact ⟨hkey, hvalue⟩

theorem parse_set_frame (hkey : IsField key.toList) (hvalue : IsField value.toList) :
    parse (bytesOf ("SET " ++ key ++ " " ++ value ++ "\n")) = .ok (.set key value none) :=
  (renders_line (.set key value none)).parse_eq ⟨hkey, hvalue, by simp⟩

theorem parse_get_frame (hkey : IsField key.toList) :
    parse (bytesOf ("GET " ++ key ++ "\n")) = .ok (.get key) :=
  (renders_line (.get key)).parse_eq hkey

end Command

namespace TtlMap

variable {m : TtlMap} {key value : String} {c : Command} {e : Event}

/-- A frame with a command that writes or removes a key. -/
def Event.Decides (key : String) : Event → Prop
  | .frame _ bytes => ∃ c, Command.parse bytes = .ok c ∧ c.Decides key
  | .revoke _ | .advance _ | .signal _ => False

/-- A key has a value, and no deadline. -/
structure Holds (key value : String) (m : TtlMap) : Prop where
  value : m.values key = some value
  lasting : m.deadlines key = none

theorem holds_put (key value : String) (m : TtlMap) : Holds key value (m.put key value none) where
  value := by simp [put]
  lasting := by simp [put]

theorem Holds.obey (h : Holds key value m) (identity : String) (hc : ¬ c.Decides key) :
    Holds key value (m.obey none identity c).2 := by
  cases c with
  | auth candidate => exact h
  | get k => exact h
  | set k v ttl =>
      have hk : key ≠ k := fun hk ↦ hc hk.symm
      exact ⟨by simp [TtlMap.obey, admits, put, Function.update_of_ne hk, h.value],
        by simp [TtlMap.obey, admits, put, Function.update_of_ne hk, h.lasting]⟩
  | del k =>
      have hk : key ≠ k := fun hk ↦ hc hk.symm
      have hremoved : Holds key value (m.remove k) :=
        ⟨by simp [remove, Function.update_of_ne hk, h.value],
          by simp [remove, Function.update_of_ne hk, h.lasting]⟩
      by_cases hvalue : (m.values k).isSome
      · simpa [TtlMap.obey, admits, hvalue] using hremoved
      · simpa [TtlMap.obey, admits, hvalue] using h

/-- Without a secret only commands decide on a key, and time takes nothing that has no deadline. -/
theorem Holds.step (h : Holds key value m) (he : ¬ e.Decides key) :
    Holds key value (m.step none e).2 := by
  cases e with
  | frame identity bytes =>
      cases hparse : Command.parse bytes with
      | error e => simpa [TtlMap.step, execute, hparse] using h
      | ok c =>
          have hc : ¬ c.Decides key := fun hdecides ↦ he ⟨c, hparse, hdecides⟩
          simpa [TtlMap.step, execute, hparse] using h.obey identity hc
  | revoke identity => exact h
  | advance ms =>
      have hexpired : m.expired (m.now + ms) key = false := by simp [expired, h.lasting]
      exact ⟨by simp [TtlMap.step, elapse, hexpired, h.value],
        by simp [TtlMap.step, elapse, hexpired, h.lasting]⟩
  | signal sig => exact ⟨h.value, by simp [TtlMap.step, TtlMap.signal, h.lasting]⟩

theorem Holds.run (h : Holds key value m) {es : List Event} (hes : ∀ e ∈ es, ¬ e.Decides key) :
    Holds key value (m.run none es).2 := by
  induction es generalizing m with
  | nil => exact h
  | cons e es ih =>
      rw [List.forall_mem_cons] at hes
      exact ih (h.step hes.1) hes.2

end TtlMap

namespace Dispatch

open TtlMap Command

variable {m : TtlMap} {s : TimedStore (Recorded Memory)} {key value : String} {bytes : Bytes}

/-- Without a secret a `SET` is answered `OK` and leaves its value in the key. -/
theorem execute_set (hr : Refines m s) (client : String)
    (hparse : parse bytes = .ok (.set key value none)) :
    (execute none client bytes s).1 = .ok ∧
      ∃ m', Refines m' (step none (.frame client bytes) s).2 ∧ Holds key value m' := by
  obtain ⟨hreply, hnext⟩ := hr.execute none client bytes
  have hput : m.execute none client bytes = (.ok, m.put key value none) := by
    simp [TtlMap.execute, hparse, obey, admits]
  rw [hput] at hreply hnext
  exact ⟨hreply, _, hnext, holds_put key value m⟩

/-- Without a secret a `GET` is answered with the value that the key has. -/
theorem execute_get (hr : Refines m s) (h : Holds key value m) (client : String)
    (hparse : parse bytes = .ok (.get key)) : (execute none client bytes s).1 = .value value := by
  rw [(hr.execute none client bytes).1]
  simp [TtlMap.execute, hparse, obey, admits, h.value]

/-- Take any key and any value that are tokens, and any dispatcher without a secret on a store in
memory without faults.  If they have no white space beyond ASCII either, the `SET` of the key to the
value is parsed to this command and answered `OK`, and at any later time, as long as no command
decides on the key, a `GET` of the key is answered with the value.  If they have some, no frame
whatsoever is a `SET` of this key to this value. -/
theorem value_survives_iff_narrow (key value : String) (hkey : IsToken key.toList)
    (hvalue : IsToken value.toList) :
    let narrow := Without wideSpace (key.toList ++ value.toList)
    let frame := bytesOf ("SET " ++ key ++ " " ++ value ++ "\n")
    (parse frame = .ok (.set key value none) ↔ narrow) ∧
    (narrow → parse (bytesOf ("GET " ++ key ++ "\n")) = .ok (.get key) ∧
      ∀ (store : Memory) (now : Nat) (channel : Channel) (past later : List Event)
        (client reader : String) (get : Bytes),
        let s := (runSteps none (past.map Event.step) { store := { store }, now, channel }).2
        let written := (step none (.frame client frame) s).2
        let last := (runSteps none (later.map Event.step) written).2
        (execute none client frame s).1 = .ok ∧
          ((∀ e ∈ later, ¬ e.Decides key) → parse get = .ok (.get key) →
            (execute none reader get last).1 = .value value)) ∧
    (¬ narrow → ∀ bytes expiry, parse bytes ≠ .ok (.set key value expiry)) := by
  intro narrow frame
  have hnarrow : narrow ↔ IsField key.toList ∧ IsField value.toList := by
    rw [hkey.isField_iff, hvalue.isField_iff]
    exact List.forall_mem_append
  refine ⟨⟨fun hparse ↦ hnarrow.mpr (isField_of_parse_set hparse), fun h ↦ ?_⟩, fun h ↦ ?_, ?_⟩
  · obtain ⟨hkey, hvalue⟩ := hnarrow.mp h
    exact parse_set_frame hkey hvalue
  · obtain ⟨hkey, hvalue⟩ := hnarrow.mp h
    refine ⟨parse_get_frame hkey, ?_⟩
    intro store now channel past later client reader get s written last
    have hs := ((Refines.start store now channel).runSteps none past).2
    obtain ⟨hok, m, hm, hholds⟩ := execute_set hs client (parse_set_frame hkey hvalue)
    refine ⟨hok, fun hlater hget ↦ ?_⟩
    exact execute_get (hm.runSteps none later).2 (hholds.run hlater) reader hget
  · intro h bytes expiry hparse
    exact h (hnarrow.mpr (isField_of_parse_set hparse))

/-- A value with letters beyond ASCII outlives a pause, a shutdown and a `SET` of another key. -/
theorem wide_letters_survive :
    let start : TimedStore (Recorded Memory) := { store := { store := {} } }
    let later : List Event :=
      [.advance 5000, .frame "Q" (bytesOf "SET j v 1\n"), .signal .stop, .advance 5000]
    let written := (step none (.frame "P" (bytesOf "SET ключ 値\n")) start).2
    (execute none "Q" (bytesOf "GET ключ\n")
      (runSteps none (later.map Event.step) written).2).1 = .value "値" := by
  intro start later written
  obtain ⟨-, hsurvives, -⟩ := value_survives_iff_narrow "ключ" "値" ⟨by decide, by decide⟩
    ⟨by decide, by decide⟩
  obtain ⟨hget, hruns⟩ := hsurvives (by decide)
  have hother : Command.parse (bytesOf "SET j v 1\n") = .ok (.set "j" "v" (some 1)) := by
    decide +kernel
  have hlater : ∀ e ∈ later, ¬ e.Decides "ключ" := by
    simp [later, Event.Decides, hother, Command.Decides]
  exact (hruns {} 0 {} [] later "P" "Q" _).2 hlater hget

/-- A value breaks at a no-break space: its second half is taken for a time to live, and a `GET` is
answered with its first half. -/
theorem no_break_space_breaks_value :
    let start : TimedStore (Recorded Memory) := { store := { store := {} } }
    let frame := bytesOf ("SET " ++ "k" ++ " " ++ "10\u00a05" ++ "\n")
    let written := (step none (.frame "P" frame) start).2
    IsToken "k".toList ∧ IsToken "10\u00a05".toList ∧
      parse frame = .ok (.set "k" "10" (some 5)) ∧ (execute none "P" frame start).1 = .ok ∧
      (execute none "P" (bytesOf ("GET " ++ "k" ++ "\n")) written).1 = .value "10" := by
  refine ⟨⟨by decide, by decide⟩, ⟨by decide, by decide⟩, ?_, ?_, ?_⟩ <;> decide +kernel

end Dispatch

end KvServer
