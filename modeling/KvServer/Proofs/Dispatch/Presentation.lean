import KvServer.Proofs.Command.Rendering
import KvServer.Proofs.Dispatch.Rejection
import KvServer.Settings.Basic

/-!
# Secrets that can be presented

An `AUTH` presents one field of its line, and a field has no white space.  So a secret can be
presented exactly if it has no white space, and then by the frames whose fields are `AUTH` and the
secret (`accepts_iff`).  A secret with white space locks the server: from a store without white
space in its values no one is ever let in (`Locked.runSteps`).
-/

namespace KvServer

open Text

namespace Command

variable {frame : Bytes} {ws : List (List Char)} {c : Command}

/-- A frame is UTF-8, and these are the maximal runs of its characters that are not white space. -/
def Fields (frame : Bytes) (ws : List (List Char)) : Prop :=
  ∃ line, encode line = frame ∧ Runs line ws

theorem Fields.isField (h : Fields frame ws) : ∀ w ∈ ws, IsField w := by
  obtain ⟨line, -, hruns⟩ := h
  rw [← runs_iff.mp hruns]
  exact fun w hw ↦ isField_of_mem hw

theorem Fields.parse_eq (h : Fields frame ws) : parse frame = ofFields ws := by
  obtain ⟨line, hline, hruns⟩ := h
  rw [parse, decode_eq_ok_iff.mpr hline]
  exact congrArg ofFields (runs_iff.mp hruns)

theorem exists_fields_of_parse (h : parse frame = .ok c) :
    ∃ ws, Fields frame ws ∧ Says ws (.ok c) := by
  unfold parse at h
  cases hdecode : decode frame with
  | error f =>
      rw [hdecode] at h
      cases h
  | ok line =>
      rw [hdecode] at h
      exact ⟨fields line, ⟨line, decode_eq_ok_iff.mp hdecode, runs_fields line⟩, says_iff.mpr h⟩

theorem Says.eq_auth {candidate : String} (h : Says ws (.ok (.auth candidate))) :
    ws = ["AUTH".toList, candidate.toList] := by
  generalize hc : auth candidate = c at h
  cases h with
  | one hverb arg => cases hverb <;> cases hc; rfl
  | set | setExpiry => cases hc

/-- A frame is an `AUTH` with a candidate exactly if these two are its fields. -/
theorem parse_eq_auth_iff {candidate : String} :
    parse frame = .ok (.auth candidate) ↔ Fields frame ["AUTH".toList, candidate.toList] := by
  constructor
  · intro h
    obtain ⟨ws, hws, hsays⟩ := exists_fields_of_parse h
    rwa [Says.eq_auth hsays] at hws
  · intro h
    rw [h.parse_eq]
    exact (Says.one .auth candidate).ofFields_eq

end Command

namespace Dispatch

variable {s : TimedStore (Recorded AnyStore)} {secret identity : String} {frame : Bytes}

/-- A frame is an `AUTH` and is answered `OK`. -/
def Accepts (secret : Option String) (identity : String) (frame : Bytes)
    (s : TimedStore (Recorded AnyStore)) : Prop :=
  (∃ candidate, Command.parse frame = .ok (.auth candidate)) ∧
    (execute secret identity frame s).1 = .ok

theorem call_auth_fst (hfault : s.store.faults .auth = none) :
    (s.call (.auth identity secret)).1 = .ok () := by
  have hnone : s.store.faults (Call.auth identity secret).kind = none := hfault
  rw [TimedStore.call_fst, Recorded.call_of_no_fault hnone]
  cases s.store.store <;> rfl

/-- Without a fault the frames that are accepted are those that present the secret. -/
theorem accepts_iff (hfault : s.store.faults .auth = none) :
    Accepts (some secret) identity frame s ↔
      Command.Fields frame ["AUTH".toList, secret.toList] := by
  rw [← Command.parse_eq_auth_iff]
  constructor
  · rintro ⟨⟨candidate, hparse⟩, hok⟩
    rw [execute_of_ok hparse, run, authenticate_some] at hok
    split at hok
    · rename_i hc
      rwa [hc] at hparse
    · cases hok
  · intro hparse
    refine ⟨⟨secret, hparse⟩, ?_⟩
    rw [execute_of_ok hparse, run, authenticate_some, if_pos rfl, call_auth_fst hfault]
    rfl

theorem exists_accepts_iff (hsecret : secret ≠ "") (hfault : s.store.faults .auth = none) :
    (∃ frame, Accepts (some secret) identity frame s) ↔ BlankFree secret := by
  simp only [accepts_iff hfault]
  constructor
  · rintro ⟨frame, hfields⟩
    exact .of_isField (hfields.isField secret.toList (by simp))
  · intro hfree
    have hproper : (Command.auth secret).Proper := ⟨by simpa using hsecret, hfree⟩
    exact ⟨_, Command.parse_eq_auth_iff.mp ((Command.renders_line _).parse_eq hproper)⟩

/-! ## Secrets with white space -/

section

variable {σ : Type} [Store σ] {s : TimedStore (Recorded σ)} {c : Command}

/-- No client has the mark. -/
def Locked (secret : String) (s : TimedStore (Recorded σ)) : Prop :=
  ∀ client, ShutOut secret client s

theorem locked_of_blankFree (hsecret : ¬ BlankFree secret)
    (hvalues : ∀ key value, Store.lookUp key s.store.store = .ok value → BlankFree value) :
    Locked secret s :=
  fun client hmarked ↦ hsecret (hvalues client secret hmarked)

theorem execute_auth_fst {candidate : String} (hsecret : ¬ BlankFree secret)
    (hparse : Command.parse frame = .ok (.auth candidate)) :
    (execute (some secret) identity frame s).1 = .invalidAuth := by
  have hfield : IsField candidate.toList :=
    (Command.parse_eq_auth_iff.mp hparse).isField _ (by simp)
  have hne : candidate ≠ secret := by
    rintro rfl
    exact hsecret (.of_isField hfield)
  rw [execute_of_ok hparse, run, authenticate_some, if_neg hne]

/-- Without exactly one candidate an `AUTH` is told so. -/
theorem execute_malformed_auth_fst {secret : Option String} {args : List (List Char)}
    (hfields : Command.Fields frame ("AUTH".toList :: args)) (hargs : args.length ≠ 1) :
    ∃ message, (execute secret identity frame s).1 = .invalid message := by
  have hparse := hfields.parse_eq
  rw [Command.ofFields_single .auth] at hparse
  match args, hargs with
  | [], _ => exact ⟨_, congrArg Prod.fst (execute_of_error hparse)⟩
  | _ :: _ :: _, _ => exact ⟨_, congrArg Prod.fst (execute_of_error hparse)⟩

/-- No command gets past a secret that no `AUTH` can present. -/
theorem Locked.execute_fst (h : Locked secret s) (hsecret : ¬ BlankFree secret)
    (hparse : Command.parse frame = .ok c) :
    (execute (some secret) identity frame s).1 = .invalidAuth := by
  cases c with
  | auth candidate => exact execute_auth_fst hsecret hparse
  | set key value ttl | get key | del key =>
      by_contra hadmitted
      exact ((execute_ne_invalidAuth_iff hparse trivial).mp hadmitted).2 (h identity)

theorem Locked.not_mayAdmit (h : Locked secret s) (hsecret : ¬ BlankFree secret) {st : Step}
    (hst : ∀ c, st ≠ .direct c) (client : String) : ¬ MayAdmit secret client st s := by
  cases st with
  | frame identity bytes =>
      rintro ⟨hok, c, hparse, -⟩
      rw [h.execute_fst hsecret hparse] at hok
      cases hok
  | revoke identity | advance ms | signal sig | fault kind error? => exact id
  | direct c => exact absurd rfl (hst c)

variable [KeyedStore σ] [ErasingStore σ]

/-- A locked server stays locked, whatever frames, departures, time, signals and faults come. -/
theorem Locked.runSteps {sts : List Step} (h : Locked secret s) (hs : s.Settled)
    (hsecret : ¬ BlankFree secret) (hsts : ∀ st ∈ sts, ∀ c, st ≠ .direct c) :
    Locked secret (runSteps (some secret) sts s).2 := by
  induction sts generalizing s with
  | nil => exact h
  | cons st sts ih =>
      rw [List.forall_mem_cons] at hsts
      have hnext : Locked secret (step (some secret) st s).2 := fun client ↦
        (h client).step hs (h.not_mayAdmit hsecret hsts.1 client)
      exact ih hnext (settled_step hs (some secret) st) hsts.2

end

/-- Only the empty text asks for no secret.  Take any other text as the secret.  On a store of
either kind, in any state without a fault, some frame of a client is accepted as an `AUTH` exactly
if the text has no white space, and then these frames are those with the fields `AUTH` and the text.
If the text has white space, a frame that begins with `AUTH` is refused, or told what is wrong with
its fields; and a server whose store has no white space in its values at first refuses every command
of every client at any time, until someone writes to the store past it. -/
theorem accepted_iff_blankFree (settings : Settings) :
    let text := settings.auth
    let secret := Secret.ofText settings.secret
    (settings.secret = none ↔ text = "") ∧ (Secret.ofText (some text) = none ↔ text = "") ∧
    (text ≠ "" →
      (∀ (s : TimedStore (Recorded AnyStore)) (identity : String), s.store.faults .auth = none →
        ((∃ frame, Accepts secret identity frame s) ↔ BlankFree text) ∧
        (BlankFree text → ∀ frame, Accepts secret identity frame s ↔
          Command.Fields frame ["AUTH".toList, text.toList])) ∧
      (¬ BlankFree text →
        (∀ (s : TimedStore (Recorded AnyStore)) (identity : String) (frame : Bytes)
          (args : List (List Char)), Command.Fields frame ("AUTH".toList :: args) →
          (args.length = 1 → (execute secret identity frame s).1 = .invalidAuth) ∧
          (args.length ≠ 1 → ∃ message, (execute secret identity frame s).1 = .invalid message)) ∧
        ∀ (store : Recorded AnyStore) (now : Nat) (channel : Channel) (sts : List Step),
          (∀ key value, Store.lookUp key store.store = .ok value → BlankFree value) →
          (∀ st ∈ sts, ∀ c, st ≠ .direct c) →
          ∀ identity frame c, Command.parse frame = .ok c →
            (execute secret identity frame
              (runSteps secret sts { store, now, channel }).2).1 = .invalidAuth)) := by
  intro text secret
  have hnone : settings.secret = none ↔ text = "" := by simp [Settings.secret, text]
  have hofText : Secret.ofText (some text) = none ↔ text = "" := by
    simp [Secret.ofText, Option.filter_eq_none_iff]
  refine ⟨hnone, hofText, fun hne ↦ ?_⟩
  have hsecret : secret = some text := by
    have hsome : settings.secret = some text := if_neg hne
    simp only [secret, hsome]
    simp [Secret.ofText, hne]
  rw [hsecret]
  refine ⟨fun s identity hfault ↦ ?_, fun hblank ↦ ⟨?_, ?_⟩⟩
  · exact ⟨exists_accepts_iff hne hfault, fun _ frame ↦ accepts_iff hfault⟩
  · intro s identity frame args hfields
    refine ⟨fun hone ↦ ?_, execute_malformed_auth_fst hfields⟩
    obtain ⟨arg, rfl⟩ := List.length_eq_one_iff.mp hone
    rw [← String.toList_ofList (l := arg)] at hfields
    exact execute_auth_fst hblank (Command.parse_eq_auth_iff.mpr hfields)
  · intro store now channel sts hvalues hsts identity frame c hparse
    have hlocked : Locked text { store, now, channel : TimedStore (Recorded AnyStore) } :=
      locked_of_blankFree hblank hvalues
    exact (hlocked.runSteps (.empty store now channel) hblank hsts).execute_fst hblank hparse

/-- A secret that is accepted with blanks of all kinds around it, and one with a no-break space in
it, which shuts out a client with a part of it under its key. -/
theorem no_break_space_locks :
    let locked : Settings := { auth := "a\u00a0b" }
    let store : Recorded AnyStore := { store := .memory (Memory.set "P" "a" {}) }
    let sts : List Step := [.frame "P" (bytesOf "AUTH a\u00a0b\n"), .frame "P" (bytesOf "AUTH a\n"),
      .fault .get (some (.backend "x")), .advance 1000, .fault .get none]
    Accepts (some "s3") "P" (bytesOf "\tAUTH\u3000s3\r\n") { store } ∧
      (∀ st ∈ sts, ∀ c, st ≠ .direct c) ∧
      (∀ frame, ¬ Accepts (some locked.auth) "P" frame { store }) ∧
      (execute (some locked.auth) "P" (bytesOf "GET P\n")
        (runSteps (some locked.auth) sts { store }).2).1 = .invalidAuth := by
  intro locked store sts
  obtain ⟨-, -, hopen⟩ := accepted_iff_blankFree { auth := "s3" }
  obtain ⟨haccepts, -⟩ := hopen (by decide)
  obtain ⟨-, -, hshut⟩ := accepted_iff_blankFree locked
  obtain ⟨hnever, hlocked⟩ := hshut (by decide)
  have hblank : ¬ BlankFree locked.auth :=
    fun h ↦ h '\u00a0' (by decide +kernel) (by decide)
  have hfree : BlankFree "s3" := by simp [BlankFree, whiteSpace]
  have hfields : Command.Fields (bytesOf "\tAUTH\u3000s3\r\n") ["AUTH".toList, "s3".toList] :=
    ⟨_, rfl, runs_iff.mpr (by decide)⟩
  have hsts : ∀ st ∈ sts, ∀ c, st ≠ .direct c := by simp [sts]
  have hvalues : ∀ key value, Store.lookUp key store.store = .ok value → BlankFree value := by
    intro key value hvalue
    have hget : (Memory.set "P" "a" {}).get key = .ok value := hvalue
    by_cases hkey : "P" = key
    · subst hkey
      cases hget
      simp [BlankFree, whiteSpace]
    · rw [Memory.get_set_of_ne hkey] at hget
      simp [Memory.get] at hget
  refine ⟨((haccepts { store } "P" rfl).2 hfree _).mpr hfields, hsts,
    fun frame haccept ↦ ?_, ?_⟩
  · exact hblank ((hnever { store } "P" rfl).1.mp ⟨frame, haccept⟩)
  · exact (hlocked hblank).2 store 0 {} sts hvalues hsts "P" (bytesOf "GET P\n") (.get "P")
      (by decide +kernel)

end Dispatch

end KvServer
