import KvServer.Startup

/-!
# Settings that pass their check

`Settings.validate` asks for a network and an engine that exist and for limits that are not zero.
So the store of checked settings never fails for its engine.  There is no upper end to the check,
and a session has one: checked settings start a session exactly if no limit is above `maxLimit`
(`start_validated_iff`).  The same decides whether a command line that has come so far is served.
-/

namespace KvServer

open Text

namespace Session

theorem exists_start_eq_ok_iff {σ : Type} (o : SessionOptions) (store : σ) :
    (∃ s, start o store = .ok s) ↔
      o.queueCapacity ≠ 0 ∧ o.queueCapacity ≤ maxLimit ∧ o.maxInflight ≤ maxLimit := by
  constructor
  · rintro ⟨s, h⟩
    unfold start at h
    split at h
    · cases h
    · split at h
      · cases h
      · omega
  · rintro ⟨hzero, hcapacity, hinflight⟩
    have hqueue : ¬ (o.queueCapacity = 0 ∨ maxLimit < o.queueCapacity) := by omega
    exact ⟨_, by rw [start, if_neg hqueue, if_neg (Nat.not_lt.mpr hinflight)]⟩

end Session

namespace Settings

variable {s : Settings}

/-- No limit is above the most permits, or the most places in a queue. -/
def Fits (s : Settings) : Prop :=
  s.eventQueueCapacity.toNat ≤ maxLimit ∧ s.maxInflightRequests.toNat ≤ maxLimit

instance : Decidable s.Fits := inferInstanceAs (Decidable (_ ∧ _))

theorem validate_eq_ok_iff :
    s.validate = .ok () ↔
      s.network ∈ networks ∧ s.engine ∈ engines ∧ s.maxInflightRequests ≠ 0 ∧
        s.eventQueueCapacity ≠ 0 := by
  unfold validate
  split
  · simp [*]
  · split
    · simp [*]
    · split
      · simp [*]
      · split <;> simp_all

theorem openStore_eq_unknownEngine_iff (tree? : Option Tree) (name : String) :
    s.openStore tree? = .error (.unknownEngine name) ↔ s.engine ∉ engines ∧ s.engine = name := by
  unfold openStore
  split
  · simp [engines, *]
  · split
    · cases tree? <;> simp [engines, *]
    · simp [engines, *]

theorem exists_session_iff {σ : Type} (store : σ) :
    (∃ session, Session.start s.sessionOptions store = .ok session) ↔
      s.eventQueueCapacity ≠ 0 ∧ s.Fits := by
  have hplace : s.eventQueueCapacity ≠ 0 ↔ s.eventQueueCapacity.toNat ≠ 0 :=
    not_congr UInt64.toNat_inj.symm
  rw [Session.exists_start_eq_ok_iff, hplace]
  exact Iff.rfl

/-- Settings that pass their check name an engine that can be opened, and a session starts with them
exactly if their limits fit. -/
theorem start_validated_iff (s : Settings) (hs : s.validate = .ok ()) :
    (∀ (tree? : Option Tree) (name : String),
      s.openStore tree? ≠ .error (.unknownEngine name)) ∧
    ∀ {σ : Type} (store : σ),
      (∃ session, Session.start s.sessionOptions store = .ok session) ↔ s.Fits := by
  obtain ⟨-, hengine, -, hcapacity⟩ := validate_eq_ok_iff.mp hs
  refine ⟨fun tree? name hopen ↦ ?_, fun store ↦ ?_⟩
  · exact ((openStore_eq_unknownEngine_iff tree? name).mp hopen).1 hengine
  · rw [exists_session_iff]
    exact and_iff_right hcapacity

/-- The largest limits that a session takes. -/
theorem largest_limits_start :
    let s : Settings :=
      { engine := "sled", maxInflightRequests := 0x1fffffffffffffff,
        eventQueueCapacity := 0x1fffffffffffffff }
    s.validate = .ok () ∧ s.openStore none ≠ .error (.unknownEngine "sled") ∧
      ∃ session, Session.start s.sessionOptions ({} : Memory) = .ok session := by
  intro s
  have hs : s.validate = .ok () := validate_eq_ok_iff.mpr (by decide)
  obtain ⟨hopen, hstart⟩ := start_validated_iff s hs
  exact ⟨hs, hopen none "sled", (hstart ({} : Memory)).mpr (by decide)⟩

/-- One permit more passes the check as well, and no session starts with it. -/
theorem permits_beyond_largest :
    let s : Settings := { maxInflightRequests := 0x2000000000000000 }
    s.validate = .ok () ∧
      Session.start s.sessionOptions ({} : Memory) = .error (.maxInflight 0x2000000000000000) := by
  intro s
  exact ⟨validate_eq_ok_iff.mpr (by decide), rfl⟩

end Settings

/-! ## Command lines -/

theorem exists_ok_of_bind {ε α β : Type} {x : Except ε α} {f : α → Except ε β} {b : β}
    (h : x >>= f = .ok b) : ∃ a, x = .ok a ∧ f a = .ok b := by
  cases x with
  | error e => cases h
  | ok a => exact ⟨a, rfl, h⟩

theorem error_of_bind {ε α β : Type} {x : Except ε α} {f : α → Except ε β} {e : ε}
    (h : x >>= f = .error e) : x = .error e ∨ ∃ a, x = .ok a ∧ f a = .error e := by
  cases x with
  | error e => cases h; exact .inl rfl
  | ok a => exact .inr ⟨a, rfl, h⟩

theorem eq_ok_of_mapError {ε ε' α : Type} {x : Except ε α} {f : ε → ε'} {a : α}
    (h : x.mapError f = .ok a) : x = .ok a := by
  cases x with
  | error e => cases h
  | ok a => cases h; rfl

theorem eq_ok_of_isOk {ε α : Type} {x : Except ε α} (h : x.isOk = true) (default : α) :
    x = .ok (x.toOption.getD default) := by
  cases x with
  | error e => cases h
  | ok a => rfl

theorem error_of_mapError {ε ε' α : Type} {x : Except ε α} {f : ε → ε'} {e' : ε'}
    (h : x.mapError f = .error e') : ∃ e, x = .error e ∧ f e = e' := by
  cases x with
  | error e => exact ⟨e, rfl, Except.error.inj h⟩
  | ok a => cases h

variable {a : Arguments} {files : Files} {env : List (String × String)} {s : Settings}
  {start : Start} {tree? : Option Tree}

/-- Whatever options replace, the settings of a command line pass their check. -/
theorem validate_of_settings {content? : Option Bytes} (h : a.settings content? env = .ok s) :
    s.validate = .ok () := by
  obtain ⟨loaded, -, h⟩ := exists_ok_of_bind h
  obtain ⟨⟨⟩, hcheck, h⟩ := exists_ok_of_bind h
  obtain rfl := Except.ok.inj h
  exact eq_ok_of_mapError hcheck

theorem settings_of_start (h : s.start tree? = .ok start) : start.settings = s := by
  obtain ⟨store, -, h⟩ := exists_ok_of_bind h
  obtain ⟨address, -, h⟩ := exists_ok_of_bind h
  rw [← Except.ok.inj h]

theorem validate_of_start (h : a.start files env = .ok start) :
    start.settings.validate = .ok () := by
  obtain ⟨s, hs, h⟩ := exists_ok_of_bind h
  rw [settings_of_start h]
  exact validate_of_settings hs

/-- A command line that gets as far as its session has one exactly if the limits fit. -/
theorem launch_serves_iff {args : List String} (hparse : CommandLine.parse args = .ok (.run a))
    (hstart : a.start files env = .ok start) :
    (∃ session, launch args files env = .serve start session) ↔ start.settings.Fits := by
  have hcapacity := (Settings.validate_eq_ok_iff.mp (validate_of_start hstart)).2.2.2
  have hlaunch : (∃ session, launch args files env = .serve start session) ↔
      ∃ session, Session.start start.settings.sessionOptions start.store = .ok session := by
    simp only [launch, hparse, hstart]
    cases Session.start start.settings.sessionOptions start.store <;> simp
  rw [hlaunch, Settings.exists_session_iff]
  exact and_iff_right hcapacity

end KvServer
