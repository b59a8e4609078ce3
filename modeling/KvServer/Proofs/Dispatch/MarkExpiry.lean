import KvServer.Proofs.Dispatch.Isolation

/-!
# How long a mark stands

An `AUTH` puts the mark of a client without a word to the timers.  So the mark inherits the deadline
of the value that was there before: it stands until this deadline, unless a command or a revocation
takes it away earlier.  `Overwrites` says which events decide on a key themselves; while there are
none, the client is refused only after a deadline that the key had before the `AUTH`, and without a
shutdown or another `AUTH` it is refused from this deadline on (`refused_only_after_old_deadline`).
-/

namespace KvServer

open Text

/-- The commands that write or remove a key. -/
def Command.Decides (key : String) : Command → Prop
  | .set k _ _ | .del k => k = key
  | .auth _ | .get _ => False

theorem Command.Decides.needsMark {key : String} {c : Command} (h : c.Decides key) :
    c.NeedsMark := by
  cases c with
  | auth secret => exact h
  | get k | set k value expiry | del k => trivial

namespace TtlMap

variable {m : TtlMap} {secret identity key : String} {c : Command} {bytes : Bytes}

theorem expired_iff {time : Nat} :
    m.expired time key = true ↔ ∃ deadline ∈ m.deadlines key, deadline ≤ time := by
  cases hdeadline : m.deadlines key <;> simp [expired, hdeadline]

/-- Whom a command may reach: unless it decides on a key and is carried out, it leaves the deadline
of the key alone, and the value but for the mark of the client itself. -/
theorem obey_spares (h : m.admits (some secret) identity = true → ¬ c.Decides key) :
    let m' := (m.obey (some secret) identity c).2
    m'.deadlines key = m.deadlines key ∧ m'.now = m.now ∧
      (m'.values key = m.values key ∨
        (m'.values key = some secret ∧ identity = key ∧ c = .auth secret)) := by
  cases c with
  | auth candidate =>
      by_cases hc : candidate = secret
      · subst hc
        by_cases hk : key = identity
        · simp [obey, mark, hk]
        · simp [obey, mark, Function.update_of_ne hk]
      · simp [obey, hc]
  | get k => by_cases hadmits : m.admits (some secret) identity <;> simp [obey, hadmits]
  | set k value ttl =>
      by_cases hadmits : m.admits (some secret) identity
      · have hk : key ≠ k := fun hk ↦ h hadmits hk.symm
        simp [obey, hadmits, put, Function.update_of_ne hk]
      · simp [obey, hadmits]
  | del k =>
      by_cases hadmits : m.admits (some secret) identity
      · have hk : key ≠ k := fun hk ↦ h hadmits hk.symm
        by_cases hvalue : (m.values k).isSome <;>
          simp [obey, hadmits, hvalue, remove, Function.update_of_ne hk]
      · simp [obey, hadmits]

end TtlMap

namespace Dispatch

open TtlMap TtlMap.Event

variable {m : TtlMap} {s : TimedStore (Recorded Memory)} {secret key identity : String}
  {bytes : Bytes} {c : Command} {e : Event}

/-- A client is refused exactly if its key does not hold the secret. -/
theorem refused_iff (hr : Refines m s) (hparse : Command.parse bytes = .ok c) (hc : c.NeedsMark) :
    (execute (some secret) identity bytes s).1 = .invalidAuth ↔
      m.values identity ≠ some secret := by
  rw [execute_of_ok hparse, (run_eq_invalidAuth_iff hc secret identity s).1,
    (hr.call (.get identity)).1]
  cases hvalue : m.values identity with
  | none => simp [Call.outcomeOn, hvalue]
  | some value => simp [Call.outcomeOn, hvalue]

/-- An event that decides on a key: a `SET` or `DEL` of the key that is carried out, or the
revocation of a mark under it. -/
def Overwrites (secret key : String) (s : TimedStore (Recorded Memory)) : Event → Prop
  | .frame identity bytes =>
      (execute (some secret) identity bytes s).1 ≠ .invalidAuth ∧
        ∃ c, Command.parse bytes = .ok c ∧ c.Decides key
  | .revoke identity => identity = key
  | .advance _ | .signal _ => False

/-- No event of a run decides on a key. -/
def Spares (secret key : String) : List Event → TimedStore (Recorded Memory) → Prop
  | [], _ => True
  | e :: es, s =>
      ¬ Overwrites secret key s e ∧ Spares secret key es (step (some secret) e.step s).2

/-- What a frame does to a key that it does not decide on. -/
theorem obey_of_not_overwrites (hr : Refines m s) (hparse : Command.parse bytes = .ok c)
    (h : ¬ Overwrites secret key s (.frame identity bytes)) :
    let m' := (m.obey (some secret) identity c).2
    m'.deadlines key = m.deadlines key ∧ m'.now = m.now ∧
      (m'.values key = m.values key ∨
        (m'.values key = some secret ∧ identity = key ∧ c = .auth secret)) := by
  apply obey_spares
  intro hadmits hdecides
  refine h ⟨?_, c, hparse, hdecides⟩
  rw [ne_eq, refused_iff hr hparse hdecides.needsMark, not_not]
  simpa [admits] using hadmits

/-- A mark stands with no deadline but the old one, or this deadline has come. -/
def Standing (secret key : String) (old : Option Nat) (m : TtlMap) : Prop :=
  (∃ time ∈ old, time ≤ m.now) ∨
    (m.values key = some secret ∧ ∀ time ∈ m.deadlines key, time ∈ old)

theorem Standing.step {old : Option Nat} (h : Standing secret key old m) (hr : Refines m s)
    (he : ¬ Overwrites secret key s e) : Standing secret key old (m.step (some secret) e).2 := by
  cases e with
  | frame identity bytes =>
      cases hparse : Command.parse bytes with
      | error e => simpa [TtlMap.step, TtlMap.execute, hparse] using h
      | ok c =>
          obtain ⟨hdeadlines, hnow, hvalues⟩ := obey_of_not_overwrites hr hparse he
          simp only [TtlMap.step, TtlMap.execute, hparse, Standing, hdeadlines, hnow]
          rcases h with hold | ⟨hmark, htimes⟩
          · exact .inl hold
          · refine .inr ⟨?_, htimes⟩
            rcases hvalues with hsame | ⟨hsecret, -⟩
            · rw [hsame, hmark]
            · exact hsecret
  | revoke identity =>
      have hother : key ≠ identity := fun hk ↦ he hk.symm
      simpa [TtlMap.step, unmark, Standing, Function.update_of_ne hother] using h
  | advance ms =>
      rcases h with ⟨time, htime, hle⟩ | ⟨hmark, htimes⟩
      · exact .inl ⟨time, htime, hle.trans (Nat.le_add_right _ _)⟩
      · cases hexpired : m.expired (m.now + ms) key with
        | false =>
            refine .inr ⟨?_, ?_⟩ <;> simp only [TtlMap.step, elapse, hexpired] <;> assumption
        | true =>
            obtain ⟨time, htime, hle⟩ := expired_iff.mp hexpired
            exact .inl ⟨time, htimes time htime, hle⟩
  | signal sig =>
      rcases h with hold | ⟨hmark, htimes⟩
      · exact .inl hold
      · refine .inr ⟨hmark, ?_⟩
        simp only [TtlMap.step, TtlMap.signal]
        split
        · simp
        · exact htimes

/-- What may keep a mark longer than its deadline: another `AUTH`, or a signal, for a shutdown ends
all timers. -/
def Prolongs (secret key : String) : Event → Prop
  | .frame identity bytes => identity = key ∧ Command.parse bytes = .ok (.auth secret)
  | .signal _ => True
  | .advance _ | .revoke _ => False

/-- A key is waiting for its old deadline, or this deadline has come and the key is gone. -/
def Passing (key : String) (old : Option Nat) (m : TtlMap) : Prop :=
  (m.deadlines key = old ∧ ∀ time ∈ old, m.now < time) ∨
    ((∃ time ∈ old, time ≤ m.now) ∧ m.values key = none)

theorem Passing.step {old : Option Nat} (h : Passing key old m) (hr : Refines m s)
    (he : ¬ Overwrites secret key s e) (hkeep : ¬ Prolongs secret key e) :
    Passing key old (m.step (some secret) e).2 := by
  cases e with
  | frame identity bytes =>
      cases hparse : Command.parse bytes with
      | error e => simpa [TtlMap.step, TtlMap.execute, hparse] using h
      | ok c =>
          obtain ⟨hdeadlines, hnow, hvalues⟩ := obey_of_not_overwrites hr hparse he
          have hsame : (m.obey (some secret) identity c).2.values key = m.values key :=
            hvalues.resolve_right fun ⟨_, hk, hc⟩ ↦ hkeep ⟨hk, hc ▸ hparse⟩
          simpa only [TtlMap.step, TtlMap.execute, hparse, Passing, hdeadlines, hnow, hsame] using h
  | revoke identity =>
      have hother : key ≠ identity := fun hk ↦ he hk.symm
      simpa [TtlMap.step, unmark, Passing, Function.update_of_ne hother] using h
  | advance ms =>
      rcases h with ⟨hdeadline, -⟩ | ⟨⟨time, htime, hle⟩, hgone⟩
      · cases hexpired : m.expired (m.now + ms) key with
        | false =>
            have hleft : ∀ time ∈ old, m.now + ms < time := by
              intro time htime
              refine Nat.lt_of_not_le fun hle ↦ ?_
              have hcome := expired_iff.mpr ⟨time, hdeadline ▸ htime, hle⟩
              rw [hexpired] at hcome
              cases hcome
            refine .inl ⟨?_, hleft⟩
            simp only [TtlMap.step, elapse, hexpired]
            exact hdeadline
        | true =>
            obtain ⟨time, htime, hle⟩ := expired_iff.mp hexpired
            refine .inr ⟨⟨time, hdeadline ▸ htime, hle⟩, ?_⟩
            simp only [TtlMap.step, elapse, hexpired, if_true]
      · refine .inr ⟨⟨time, htime, hle.trans (Nat.le_add_right _ _)⟩, ?_⟩
        simp [TtlMap.step, elapse, hgone]
  | signal sig => exact absurd trivial hkeep

/-- What every step of a run preserves that spares a key holds after the run. -/
theorem course_induction {P : TtlMap → Prop} {es : List Event}
    (hstep : ∀ m s, ∀ e ∈ es, Refines m s → ¬ Overwrites secret key s e → P m →
      P (m.step (some secret) e).2)
    (hr : Refines m s) (hes : Spares secret key es s) (hm : P m) :
    ∃ m', Refines m' (course secret es s).2 ∧ P m' := by
  induction es generalizing m s with
  | nil => exact ⟨m, hr, hm⟩
  | cons e es ih =>
      obtain ⟨he, hlater⟩ := hes
      rw [course_cons]
      exact ih (fun m s e' he' ↦ hstep m s e' (List.mem_cons_of_mem _ he'))
        (hr.step (some secret) e).2 hlater (hstep m s e List.mem_cons_self hr he hm)

/-- An `AUTH` that is answered `OK` puts the mark, and nothing else. -/
theorem refines_auth_ok {candidate : String} (hr : Refines m s)
    (hparse : Command.parse bytes = .ok (.auth candidate))
    (hok : (execute (some secret) identity bytes s).1 = .ok) :
    Refines (m.mark identity secret) (step (some secret) (.frame identity bytes) s).2 := by
  obtain ⟨hreply, hnext⟩ := hr.execute (some secret) identity bytes
  rw [hok] at hreply
  by_cases hc : candidate = secret
  · simp only [TtlMap.execute, hparse, obey, hc, if_true] at hnext
    exact hnext
  · simp [TtlMap.execute, hparse, obey, hc] at hreply

/-- Take any run on a store in memory, and an `AUTH` that is answered `OK` at its end.  As long as no
later event decides on the key of the client, the client is refused only after the deadline that
the key had before the `AUTH`; and it is refused from this deadline on, unless another `AUTH` or a
signal came between. -/
theorem refused_only_after_old_deadline (secret : String) (store : Memory) (now : Nat)
    (channel : Channel) (past es : List Event) (client candidate : String) (auth bytes : Bytes)
    (c : Command) :
    let s := (course secret past { store := { store }, now, channel }).2
    let marked := (step (some secret) (.frame client auth) s).2
    let t := (course secret es marked).2
    Command.parse auth = .ok (.auth candidate) → (execute (some secret) client auth s).1 = .ok →
    Spares secret client es marked → Command.parse bytes = .ok c → c.NeedsMark →
    ((execute (some secret) client bytes t).1 = .invalidAuth →
      ∃ time ∈ s.deadline? client, time ≤ t.now) ∧
    ((∀ e ∈ es, ¬ Prolongs secret client e) → (∃ time ∈ s.deadline? client, time ≤ t.now) →
      (execute (some secret) client bytes t).1 = .invalidAuth) := by
  intro s marked t hauth hok hes hparse hc
  obtain ⟨m, hm⟩ : ∃ m, Refines m s :=
    ⟨_, ((Refines.start store now channel).runSteps (some secret) past).2⟩
  have hmarked : Refines (m.mark client secret) marked := refines_auth_ok hm hauth hok
  rw [hm.deadlines client]
  constructor
  · intro hrefused
    have hstart : Standing secret client (m.deadlines client) (m.mark client secret) :=
      .inr ⟨by simp [mark], fun time htime ↦ htime⟩
    obtain ⟨last, hlast, hstanding⟩ := course_induction
      (fun m s e _ hr he hm ↦ hm.step hr he) hmarked hes hstart
    rcases hstanding with hcome | ⟨hmark, -⟩
    · rw [hlast.now]
      exact hcome
    · exact absurd hmark ((refused_iff hlast hparse hc).mp hrefused)
  · intro hkeep hcome
    have hahead : ∀ time ∈ m.deadlines client, m.now < time := by
      intro time htime
      rw [← hm.now]
      exact hm.settled.not_passed ((hm.deadlines client).trans htime)
    have hstart : Passing client (m.deadlines client) (m.mark client secret) :=
      .inl ⟨rfl, hahead⟩
    obtain ⟨last, hlast, hpassing⟩ := course_induction
      (fun m s e he hr hspares hm ↦ hm.step hr hspares (hkeep e he)) hmarked hes hstart
    rw [refused_iff hlast hparse hc]
    rcases hpassing with ⟨-, hleft⟩ | ⟨-, hgone⟩
    · obtain ⟨time, htime, hle⟩ := hcome
      have hlt := hleft time htime
      rw [← hlast.now] at hlt
      exact absurd hle (Nat.not_le_of_lt hlt)
    · rw [hgone]
      simp

/-- A mark over a value with a second to live is there just before the second is over, and is gone
with it, although another client has looked at the key. -/
theorem mark_over_short_lived_value :
    let s := (course "s" [.frame "P" (bytesOf "AUTH s\n"), .frame "P" (bytesOf "SET P s 1\n")]
      { store := { store := {} } }).2
    let marked := (step (some "s") (.frame "P" (bytesOf "AUTH s\n")) s).2
    let look : Event := .frame "Q" (bytesOf "GET P\n")
    Spares "s" "P" [look, .advance 999] marked ∧ Spares "s" "P" [look, .advance 1000] marked ∧
      (execute (some "s") "P" (bytesOf "GET k\n")
        (course "s" [look, .advance 999] marked).2).1 ≠ .invalidAuth ∧
      (execute (some "s") "P" (bytesOf "GET k\n")
        (course "s" [look, .advance 1000] marked).2).1 = .invalidAuth := by
  intro s marked look
  have hlook : Command.parse (bytesOf "GET P\n") = .ok (.get "P") := by decide +kernel
  have hspared : ¬ Overwrites "s" "P" marked look := by
    rintro ⟨-, c, hc, hdecides⟩
    rw [hlook] at hc
    cases hc
    exact hdecides
  have hspares : ∀ ms, Spares "s" "P" [look, .advance ms] marked :=
    fun ms ↦ ⟨hspared, id, trivial⟩
  have hlaw := fun ms ↦ refused_only_after_old_deadline "s" {} 0 {} _ [look, .advance ms] "P" "s"
    (bytesOf "AUTH s\n") (bytesOf "GET k\n") (.get "k") (by decide +kernel) (by decide +kernel)
    (hspares ms) (by decide +kernel) trivial
  have hdeadline : s.deadline? "P" = some 1000 := by decide +kernel
  refine ⟨hspares 999, hspares 1000, ?_, ?_⟩
  · intro hrefused
    obtain ⟨time, htime, hle⟩ := (hlaw 999).1 hrefused
    cases hdeadline.symm.trans htime
    exact absurd hle (by decide +kernel)
  · have hkeep : ∀ e ∈ [look, .advance 1000], ¬ Prolongs "s" "P" e := by
      simp [look, Prolongs]
    exact (hlaw 1000).2 hkeep ⟨1000, hdeadline, by decide +kernel⟩

/-- A timer is not superseded by the `AUTH` of the client whose key it watches: a second after the
`AUTH` was answered `OK` the client is refused, although nobody has touched its key. -/
theorem timer_outlives_auth :
    let s := (course "s" [.frame "P" (bytesOf "AUTH s\n"), .frame "P" (bytesOf "SET P s 1\n")]
      { store := { store := {} } }).2
    let marked := (step (some "s") (.frame "P" (bytesOf "AUTH s\n")) s).2
    (execute (some "s") "P" (bytesOf "AUTH s\n") s).1 = .ok ∧
      Spares "s" "P" [.advance 1000] marked ∧
      (execute (some "s") "P" (bytesOf "GET k\n") (course "s" [.advance 1000] marked).2).1 =
        .invalidAuth :=
  ⟨by decide +kernel, ⟨id, trivial⟩, by decide +kernel⟩

end Dispatch

end KvServer
