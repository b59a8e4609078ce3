import KvServer.Proofs.Settings.Shadowing

/-!
# Settings layer by layer

Where no key leads to a place inside another, a setting is what its variable says, else what the
file says, else its default (`Settings.effective?`), and nothing else of the file and of the
environment matters (`Settings.load_eq`).  `Settings.load_by_field` says what comes of it: the
settings that these values convert to, the first fault of theirs, or a value that does not convert.
-/

namespace KvServer

open Text

/-- A value is of a kind that its setting takes. -/
def Field.Takes : Field → Value → Prop
  | .port, v => v.port? ≠ none
  | .maxInflightRequests, v | .eventQueueCapacity, v => v.word? ≠ none
  | .revokeAuthOnDisconnect, v => v.flag? ≠ none
  | .host, v | .network, v | .auth, v | .engine, v | .storagePath, v => v.text? ≠ none

namespace Settings

/-- The value of a setting: that of its variable, else that of the file. -/
def effective? (file : Layer) (env : List (String × String)) (f : Field) : Option Value :=
  ((env.find? fun v ↦ Layer.IsVariableOf f.name v.1).map (.text ·.2)).or (file.lookup f.name)

/-- A setting with or without a value is something: what the value converts to, or the default. -/
def Becomes {α : Type} (convert : Value → Option α) (default : α) : Option Value → α → Prop
  | none, a => a = default
  | some v, a => convert v = some a

/-- The settings that some values convert to. -/
structure Converts (value? : Field → Option Value) (s : Settings) : Prop where
  host : Becomes Value.text? "127.0.0.1" (value? .host) s.host
  port : Becomes Value.port? 9000 (value? .port) s.port
  network : Becomes Value.text? "tcp" (value? .network) s.network
  auth : Becomes Value.text? "" (value? .auth) s.auth
  engine : Becomes Value.text? "rwlock" (value? .engine) s.engine
  storagePath : Becomes Value.text? "data" (value? .storagePath) s.storagePath
  maxInflightRequests :
    Becomes Value.word? 1024 (value? .maxInflightRequests) s.maxInflightRequests
  eventQueueCapacity : Becomes Value.word? 1024 (value? .eventQueueCapacity) s.eventQueueCapacity
  revokeAuthOnDisconnect :
    Becomes Value.flag? false (value? .revokeAuthOnDisconnect) s.revokeAuthOnDisconnect

/-- What the first check says that some settings fail. -/
inductive FirstFault (s : Settings) : SettingsError → Prop
  | network : s.network ∉ networks → FirstFault s (.unsupportedNetwork s.network)
  | engine : s.network ∈ networks → s.engine ∉ engines → FirstFault s (.unknownEngine s.engine)
  | maxInflightRequests : s.network ∈ networks → s.engine ∈ engines → s.maxInflightRequests = 0 →
      FirstFault s (.zeroLimit "max_inflight_requests")
  | eventQueueCapacity : s.network ∈ networks → s.engine ∈ engines → s.maxInflightRequests ≠ 0 →
      s.eventQueueCapacity = 0 → FirstFault s (.zeroLimit "event_queue_capacity")

variable {value? other? : Field → Option Value} {s : Settings} {f : Field} {e : LoadError}

theorem validate_eq_error_iff {fault : SettingsError} :
    s.validate = .error fault ↔ FirstFault s fault := by
  unfold validate
  constructor
  · intro h
    split at h
    next hnetwork => cases h; exact .network hnetwork
    next hnetwork =>
      rw [not_not] at hnetwork
      split at h
      next hengine => cases h; exact .engine hnetwork hengine
      next hengine =>
        rw [not_not] at hengine
        split at h
        next hinflight => cases h; exact .maxInflightRequests hnetwork hengine hinflight
        next hinflight =>
          split at h
          next hcapacity => cases h; exact .eventQueueCapacity hnetwork hengine hinflight hcapacity
          next => cases h
  · intro h
    cases h <;> simp [*]

theorem checked_eq_ok_iff {checked' : Settings} :
    s.checked = .ok checked' ↔ s.validate = .ok () ∧ s = checked' := by
  unfold checked
  split <;> simp [*]

theorem checked_eq_refused_iff {fault : SettingsError} :
    s.checked = .error (.refused fault) ↔ s.validate = .error fault := by
  unfold checked
  split <;> simp [*]

/-! ## Conversions -/

section Read

variable {α : Type} {convert : Value → Option α} {default a : α}

theorem read_eq_ok_iff :
    read value? f convert default = .ok a ↔ Becomes convert default (value? f) a := by
  unfold read Becomes
  cases value? f with
  | none => simp [eq_comm]
  | some v => cases h : convert v <;> simp [h]

theorem error_of_read (htakes : ∀ v, f.Takes v ↔ convert v ≠ none)
    (h : read value? f convert default = .error e) :
    ∃ f, e = .wrongKind f ∧ ∃ v ∈ value? f, ¬ f.Takes v := by
  unfold read at h
  split at h
  · cases h
  next v hv =>
    split at h
    · cases h
    next hconvert =>
      cases h
      exact ⟨f, rfl, v, hv, by rwa [htakes, not_not]⟩

theorem read_congr (hconvert : ∀ v : Value, ¬ v.IsScalar → convert v = none)
    (h : Value.Alike (value? f) (other? f)) :
    read value? f convert default = read other? f convert default := by
  unfold read
  rcases h with h | ⟨v, w, hv, hw, hscalar, hscalar'⟩
  · rw [h]
  · simp only [hv, hw, hconvert v hscalar, hconvert w hscalar']

theorem ne_none_of_becomes (h : Becomes convert default (value? f) a) :
    ∀ v ∈ value? f, convert v ≠ none := by
  intro v hv
  rw [Option.mem_def.mp hv] at h
  rw [h]
  nofun

end Read

theorem ofValues_eq_ok_iff : ofValues value? = .ok s ↔ Converts value? s := by
  constructor
  · intro h
    obtain ⟨host, hhost, h⟩ := exists_ok_of_bind h
    obtain ⟨port, hport, h⟩ := exists_ok_of_bind h
    obtain ⟨network, hnetwork, h⟩ := exists_ok_of_bind h
    obtain ⟨auth, hauth, h⟩ := exists_ok_of_bind h
    obtain ⟨engine, hengine, h⟩ := exists_ok_of_bind h
    obtain ⟨storagePath, hstoragePath, h⟩ := exists_ok_of_bind h
    obtain ⟨maxInflightRequests, hinflight, h⟩ := exists_ok_of_bind h
    obtain ⟨eventQueueCapacity, hcapacity, h⟩ := exists_ok_of_bind h
    obtain ⟨revokeAuthOnDisconnect, hrevoke, h⟩ := exists_ok_of_bind h
    obtain rfl := Except.ok.inj h
    exact ⟨read_eq_ok_iff.mp hhost, read_eq_ok_iff.mp hport, read_eq_ok_iff.mp hnetwork,
      read_eq_ok_iff.mp hauth, read_eq_ok_iff.mp hengine, read_eq_ok_iff.mp hstoragePath,
      read_eq_ok_iff.mp hinflight, read_eq_ok_iff.mp hcapacity, read_eq_ok_iff.mp hrevoke⟩
  · rintro ⟨hhost, hport, hnetwork, hauth, hengine, hstoragePath, hinflight, hcapacity, hrevoke⟩
    simp only [ofValues, read_eq_ok_iff.mpr hhost, read_eq_ok_iff.mpr hport,
      read_eq_ok_iff.mpr hnetwork, read_eq_ok_iff.mpr hauth, read_eq_ok_iff.mpr hengine,
      read_eq_ok_iff.mpr hstoragePath, read_eq_ok_iff.mpr hinflight, read_eq_ok_iff.mpr hcapacity,
      read_eq_ok_iff.mpr hrevoke]
    rfl

/-- Where values convert to no settings, one of them is of a kind that its setting does not take. -/
theorem error_of_ofValues (h : ofValues value? = .error e) :
    ∃ f, e = .wrongKind f ∧ ∃ v ∈ value? f, ¬ f.Takes v := by
  rcases error_of_bind h with h | ⟨host, -, h⟩
  · exact error_of_read (fun _ ↦ Iff.rfl) h
  rcases error_of_bind h with h | ⟨port, -, h⟩
  · exact error_of_read (fun _ ↦ Iff.rfl) h
  rcases error_of_bind h with h | ⟨network, -, h⟩
  · exact error_of_read (fun _ ↦ Iff.rfl) h
  rcases error_of_bind h with h | ⟨auth, -, h⟩
  · exact error_of_read (fun _ ↦ Iff.rfl) h
  rcases error_of_bind h with h | ⟨engine, -, h⟩
  · exact error_of_read (fun _ ↦ Iff.rfl) h
  rcases error_of_bind h with h | ⟨storagePath, -, h⟩
  · exact error_of_read (fun _ ↦ Iff.rfl) h
  rcases error_of_bind h with h | ⟨maxInflightRequests, -, h⟩
  · exact error_of_read (fun _ ↦ Iff.rfl) h
  rcases error_of_bind h with h | ⟨eventQueueCapacity, -, h⟩
  · exact error_of_read (fun _ ↦ Iff.rfl) h
  rcases error_of_bind h with h | ⟨revokeAuthOnDisconnect, -, h⟩
  · exact error_of_read (fun _ ↦ Iff.rfl) h
  cases h

theorem Converts.takes (h : Converts value? s) (f : Field) : ∀ v ∈ value? f, f.Takes v := by
  cases f with
  | host => exact ne_none_of_becomes h.host
  | port => exact ne_none_of_becomes h.port
  | network => exact ne_none_of_becomes h.network
  | auth => exact ne_none_of_becomes h.auth
  | engine => exact ne_none_of_becomes h.engine
  | storagePath => exact ne_none_of_becomes h.storagePath
  | maxInflightRequests => exact ne_none_of_becomes h.maxInflightRequests
  | eventQueueCapacity => exact ne_none_of_becomes h.eventQueueCapacity
  | revokeAuthOnDisconnect => exact ne_none_of_becomes h.revokeAuthOnDisconnect

/-- Values convert to settings exactly if every setting takes its value. -/
theorem exists_converts_iff : (∃ s, Converts value? s) ↔ ∀ f, ∀ v ∈ value? f, f.Takes v := by
  constructor
  · rintro ⟨s, hs⟩
    exact hs.takes
  · intro h
    cases hvalues : ofValues value? with
    | ok s => exact ⟨s, ofValues_eq_ok_iff.mp hvalues⟩
    | error e =>
        obtain ⟨f, -, v, hv, htakes⟩ := error_of_ofValues hvalues
        exact absurd (h f v hv) htakes

/-- Values that are the same for every setting convert alike. -/
theorem ofValues_congr (h : ∀ f, Value.Alike (value? f) (other? f)) :
    ofValues value? = ofValues other? := by
  have htext (f : Field) (default : String) :
      read value? f Value.text? default = read other? f Value.text? default :=
    read_congr (fun _ ↦ Value.text?_of_not_isScalar) (h f)
  have hword (f : Field) (default : UInt64) :
      read value? f Value.word? default = read other? f Value.word? default :=
    read_congr (fun _ ↦ Value.word?_of_not_isScalar) (h f)
  have hport (f : Field) (default : UInt16) :
      read value? f Value.port? default = read other? f Value.port? default :=
    read_congr (fun _ ↦ Value.port?_of_not_isScalar) (h f)
  have hflag (f : Field) (default : Bool) :
      read value? f Value.flag? default = read other? f Value.flag? default :=
    read_congr (fun _ ↦ Value.flag?_of_not_isScalar) (h f)
  simp only [ofValues, htext, hword, hport, hflag]

/-! ## Loading -/

/-- A file that can be read and variables, such that all keys are plain and no two variables differ
in their case only. -/
structure PlainSources (content? : Option Bytes) (file : Layer) (env : List (String × String)) :
    Prop where
  parsed : fileLayer content? = .ok file
  plain_file : ∀ e ∈ file, Key.Plain e.1
  plain_env : ∀ v ∈ env, ∀ key ∈ Layer.variableKey? v.1, Key.Plain key
  distinct : (env.filterMap fun v ↦ Layer.variableKey? v.1).Nodup

variable {content? : Option Bytes} {file : Layer} {env : List (String × String)} {values : Value}

/-- What is loaded is what the stated values convert to, once it has passed its check. -/
theorem load_eq_of_tree (hfile : fileLayer content? = .ok file)
    (htree : tree file (.ofEnvironment env) = .ok values) :
    load content? env = ofValues (stated? file env) >>= checked := by
  rw [← ofValues_congr (alike_stated hfile htree), load, hfile]
  show (tree file (.ofEnvironment env) >>= fun values ↦ _) = _
  rw [htree]
  rfl

namespace PlainSources

theorem plain_ofEnvironment (h : PlainSources content? file env) :
    ∀ e ∈ Layer.ofEnvironment env, Key.Plain e.1 := by
  intro e he
  obtain ⟨v, hv, hentry⟩ := List.mem_filterMap.mp he
  obtain ⟨key, hkey, rfl⟩ := Option.map_eq_some_iff.mp hentry
  exact h.plain_env v hv key hkey

theorem exists_tree (h : PlainSources content? file env) :
    ∃ values, tree file (.ofEnvironment env) = .ok values := by
  have hplain : ∀ e ∈ file ++ Layer.ofEnvironment env, Key.Plain e.1 :=
    List.forall_mem_append.mpr ⟨h.plain_file, h.plain_ofEnvironment⟩
  obtain ⟨values, hassign⟩ := Layer.exists_assign_of_plain hplain (.table [])
  exact ⟨values, by rw [tree, hassign]; rfl⟩

theorem stated?_eq (h : PlainSources content? file env) :
    stated? file env = effective? file env := by
  have hdistinct : ((Layer.ofEnvironment env).map (·.1)).Nodup := by
    rw [Layer.keys_ofEnvironment]
    exact h.distinct
  funext f
  rw [stated?, effective?, ← Layer.value?_eq_lookup h.plain_ofEnvironment hdistinct,
    ← Layer.value?_eq_lookup h.plain_file (nodup_of_fileLayer h.parsed),
    Layer.lookup_ofEnvironment]

end PlainSources

theorem load_eq (h : PlainSources content? file env) :
    load content? env = ofValues (effective? file env) >>= checked := by
  obtain ⟨values, htree⟩ := h.exists_tree
  rw [load_eq_of_tree h.parsed htree, h.stated?_eq]

/-- Take a file and variables with plain keys, where no two variables differ in their case only.
The settings load exactly if the value of each, from its variable, else the file, else the default,
converts and what comes of it passes its check.  Else what fails to load is a value that does not
convert, and only if there is none the first check that is not passed.  Nothing else matters: other
files and variables that give the settings the same values load alike. -/
theorem load_by_field (h : PlainSources content? file env) :
    let value? := effective? file env
    ((∃ s, Converts value? s) ↔ ∀ f, ∀ v ∈ value? f, f.Takes v) ∧
      (∀ s, load content? env = .ok s ↔ Converts value? s ∧ s.validate = .ok ()) ∧
      ((¬ ∃ s, Converts value? s) →
        ∃ f, load content? env = .error (.wrongKind f) ∧ ∃ v ∈ value? f, ¬ f.Takes v) ∧
      (∀ s, Converts value? s →
        ∀ fault, load content? env = .error (.refused fault) ↔ FirstFault s fault) ∧
      ∀ otherContent? otherFile otherEnv, PlainSources otherContent? otherFile otherEnv →
        (∀ f, effective? otherFile otherEnv f = value? f) →
          load otherContent? otherEnv = load content? env := by
  intro value?
  have hload : load content? env = ofValues value? >>= checked := load_eq h
  refine ⟨exists_converts_iff, fun s ↦ ?_, fun hnone ↦ ?_, fun s hs fault ↦ ?_,
    fun otherContent? otherFile otherEnv hother hsame ↦ ?_⟩
  · rw [hload]
    constructor
    · intro hok
      obtain ⟨converted, hconverted, hchecked⟩ := exists_ok_of_bind hok
      obtain ⟨hvalid, rfl⟩ := checked_eq_ok_iff.mp hchecked
      exact ⟨ofValues_eq_ok_iff.mp hconverted, hvalid⟩
    · rintro ⟨hs, hvalid⟩
      rw [ofValues_eq_ok_iff.mpr hs]
      exact checked_eq_ok_iff.mpr ⟨hvalid, rfl⟩
  · cases hvalues : ofValues value? with
    | ok s => exact absurd ⟨s, ofValues_eq_ok_iff.mp hvalues⟩ hnone
    | error e =>
        obtain ⟨f, rfl, hf⟩ := error_of_ofValues hvalues
        refine ⟨f, ?_, hf⟩
        rw [hload, hvalues]
        rfl
  · rw [hload, ofValues_eq_ok_iff.mpr hs, ← validate_eq_error_iff]
    exact checked_eq_refused_iff
  · rw [load_eq hother, hload, funext hsame]

/-- A variable in mixed case makes up for a bad value in the file, and neither an entry that is no
setting nor one with the name of a setting in another case does any harm. -/
theorem shadowed_network_loads :
    let content := bytesOf "network = \"udp\"\nHost = 1\nport = 7000\nextra = [1]\n"
    let env := [("KECE_Network", "tcp4"), ("HOME", "/"), ("KECE_LEVEL", "1")]
    ∃ file, PlainSources (some content) file env ∧
      load (some content) env = .ok { network := "tcp4", port := 7000 } := by
  intro content env
  let file : Layer := (fileLayer (some content)).toOption.getD []
  have hplain : PlainSources (some content) file env := by
    refine ⟨?_, by decide +kernel, fun v hv key hkey ↦ ?_, by decide +kernel⟩
    · have hok : (fileLayer (some content)).isOk = true := by decide +kernel
      cases hparse : fileLayer (some content) with
      | error e => simp [hparse, Except.isOk, Except.toBool] at hok
      | ok file' => simp [file, hparse, Except.toOption]
    · have hkeys : ∀ key ∈ env.filterMap fun v ↦ Layer.variableKey? v.1, Key.Plain key := by
        decide +kernel
      exact hkeys key (List.mem_filterMap.mpr ⟨v, hv, hkey⟩)
  obtain ⟨-, hloads, -⟩ := load_by_field hplain
  have hvalues : ofValues (effective? file env) = .ok { network := "tcp4", port := 7000 } := by
    decide +kernel
  exact ⟨file, hplain, (hloads _).mpr ⟨ofValues_eq_ok_iff.mp hvalues, rfl⟩⟩

end Settings

end KvServer
