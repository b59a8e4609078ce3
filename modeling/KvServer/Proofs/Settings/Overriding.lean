import KvServer.Proofs.Settings.Loading

/-!
# Options over settings

An option takes the place of what the environment and the file state for a setting, so that the
settings are the options where there are any (`Converts.override`).  But the settings are checked
before that as well, with what the options are going to replace (`settings_with_options`).
-/

namespace KvServer

open Text

/-! ## Options as values -/

/-- The value that an option gives to a setting. -/
def Overrides.value? (o : Overrides) : Field → Option Value
  | .host => o.host.map .text
  | .port => o.port.map fun port ↦ .integer port.toNat
  | .network => o.network.map .text
  | .auth => o.auth.map .text
  | .engine => o.engine.map .text
  | .storagePath => o.storagePath.map .text
  | .maxInflightRequests | .eventQueueCapacity | .revokeAuthOnDisconnect => none

/-- The value of a setting: that of its option, else what is stated for it. -/
def Overrides.over (o : Overrides) (stated? : Field → Option Value) (f : Field) : Option Value :=
  (o.value? f).or (stated? f)

theorem Value.port?_integer (port : UInt16) : (integer port.toNat).port? = some port := by
  simp [port?, word?]

namespace Settings

variable {o : Overrides} {value? : Field → Option Value} {s t : Settings} {f : Field}

theorem becomes_or {α : Type} {convert : Value → Option α} {default a : α} {v? : Option Value}
    (option? : Option α) {toValue : α → Value} (hconvert : ∀ a, convert (toValue a) = some a)
    (h : Becomes convert default v? a) :
    Becomes convert default ((option?.map toValue).or v?) (option?.getD a) := by
  cases option? with
  | none => exact h
  | some a => exact hconvert a

/-- Where settings are what is stated, with options in place they are the options first. -/
theorem Converts.override (h : Converts value? s) : Converts (o.over value?) (s.override o) where
  host := becomes_or o.host (fun _ ↦ rfl) h.host
  port := becomes_or o.port Value.port?_integer h.port
  network := becomes_or o.network (fun _ ↦ rfl) h.network
  auth := becomes_or o.auth (fun _ ↦ rfl) h.auth
  engine := becomes_or o.engine (fun _ ↦ rfl) h.engine
  storagePath := becomes_or o.storagePath (fun _ ↦ rfl) h.storagePath
  maxInflightRequests := h.maxInflightRequests
  eventQueueCapacity := h.eventQueueCapacity
  revokeAuthOnDisconnect := h.revokeAuthOnDisconnect

theorem Converts.unique (hs : Converts value? s) (ht : Converts value? t) : s = t :=
  Except.ok.inj ((ofValues_eq_ok_iff.mpr hs).symm.trans (ofValues_eq_ok_iff.mpr ht))

/-! ## What options replace -/

/-- What options replace would have done as well: it is of a kind that its setting takes, and a
network or an engine is one that exists. -/
structure ReplacesSound (o : Overrides) (value? : Field → Option Value) : Prop where
  takes : ∀ f, o.value? f ≠ none → ∀ v ∈ value? f, f.Takes v
  network : o.network ≠ none → ∀ v ∈ value? .network, ∀ name ∈ v.text?, name ∈ networks
  engine : o.engine ≠ none → ∀ v ∈ value? .engine, ∀ name ∈ v.text?, name ∈ engines

/-- No key of a file or an environment has an index that is out of place. -/
def InPlace (file : Layer) (env : List (String × String)) : Prop :=
  ∃ values, tree file (.ofEnvironment env) = .ok values

/-- Where the settings with options convert, so do those without, if what is replaced is sound. -/
theorem ReplacesSound.exists_converts (ho : ReplacesSound o value?)
    (hs : Converts (o.over value?) s) : ∃ t, Converts value? t := by
  refine exists_converts_iff.mpr fun f v hv ↦ ?_
  by_cases hoption : o.value? f = none
  · apply hs.takes f v
    rw [Overrides.over, hoption, Option.none_or]
    exact hv
  · exact ho.takes f hoption v hv

theorem mem_of_becomes {allowed : List String} {default name : String} {v? : Option Value}
    (h : Becomes Value.text? default v? name) (hdefault : default ∈ allowed)
    (hstated : ∀ v ∈ v?, ∀ name ∈ v.text?, name ∈ allowed) : name ∈ allowed := by
  cases v? with
  | none =>
      obtain rfl : name = default := h
      exact hdefault
  | some v => exact hstated v rfl name h

theorem stated_mem_of_becomes {allowed : List String} {default name : String} {v? : Option Value}
    (h : Becomes Value.text? default v? name) (hname : name ∈ allowed) :
    ∀ v ∈ v?, ∀ name ∈ v.text?, name ∈ allowed := by
  intro v hv name' hname'
  obtain rfl := Option.mem_def.mp hv
  obtain rfl : name = name' := Option.some.inj ((show v.text? = some name from h).symm.trans hname')
  exact hname

/-- What options replace is sound where the settings convert and name what exists without them. -/
theorem Converts.replacesSound (h : Converts value? s) (hnetwork : s.network ∈ networks)
    (hengine : s.engine ∈ engines) : ReplacesSound o value? where
  takes f _ := h.takes f
  network _ := stated_mem_of_becomes h.network hnetwork
  engine _ := stated_mem_of_becomes h.engine hengine

/-- Settings that pass their check with options in place passed it before, if the network and the
engine that were replaced exist. -/
theorem validate_of_override (h : (s.override o).validate = .ok ())
    (hnetwork : o.network ≠ none → s.network ∈ networks)
    (hengine : o.engine ≠ none → s.engine ∈ engines) : s.validate = .ok () := by
  obtain ⟨hnet, heng, hinflight, hcapacity⟩ := validate_eq_ok_iff.mp h
  refine validate_eq_ok_iff.mpr ⟨?_, ?_, hinflight, hcapacity⟩
  · cases hoption : o.network with
    | none => simpa [Settings.override, hoption] using hnet
    | some name => exact hnetwork (by simp [hoption])
  · cases hoption : o.engine with
    | none => simpa [Settings.override, hoption] using heng
    | some name => exact hengine (by simp [hoption])

/-! ## Two checks -/

variable {content? : Option Bytes} {file : Layer} {env : List (String × String)}

theorem validate_of_load (h : load content? env = .ok s) : s.validate = .ok () := by
  obtain ⟨file, -, h⟩ := exists_ok_of_bind h
  obtain ⟨values, -, h⟩ := exists_ok_of_bind h
  obtain ⟨converted, -, h⟩ := exists_ok_of_bind h
  obtain ⟨hvalid, rfl⟩ := checked_eq_ok_iff.mp h
  exact hvalid

theorem load_ok_iff (hfile : fileLayer content? = .ok file) :
    load content? env = .ok s ↔
      InPlace file env ∧ Converts (stated? file env) s ∧ s.validate = .ok () := by
  constructor
  · intro h
    obtain ⟨values, htree⟩ : InPlace file env := by
      obtain ⟨file', hfile', h⟩ := exists_ok_of_bind h
      obtain rfl := Except.ok.inj (hfile'.symm.trans hfile)
      obtain ⟨values, htree, -⟩ := exists_ok_of_bind h
      exact ⟨values, htree⟩
    rw [load_eq_of_tree hfile htree] at h
    obtain ⟨converted, hconverted, hchecked⟩ := exists_ok_of_bind h
    obtain ⟨hvalid, rfl⟩ := checked_eq_ok_iff.mp hchecked
    exact ⟨⟨values, htree⟩, ofValues_eq_ok_iff.mp hconverted, hvalid⟩
  · rintro ⟨⟨values, htree⟩, hs, hvalid⟩
    rw [load_eq_of_tree hfile htree, ofValues_eq_ok_iff.mpr hs]
    exact checked_eq_ok_iff.mpr ⟨hvalid, rfl⟩

end Settings

namespace Arguments

open Settings

variable {content? : Option Bytes} {file : Layer} {env : List (String × String)} {a : Arguments}
  {s : Settings} {fault : SettingsError}

theorem settings_ok_iff :
    a.settings content? env = .ok s ↔ ∃ loaded, load content? env = .ok loaded ∧
      loaded.override a.overrides = s ∧ s.validate = .ok () := by
  constructor
  · intro h
    obtain ⟨loaded, hload, h⟩ := exists_ok_of_bind h
    obtain ⟨⟨⟩, hcheck, h⟩ := exists_ok_of_bind h
    obtain rfl := Except.ok.inj h
    exact ⟨loaded, eq_ok_of_mapError hload, rfl, eq_ok_of_mapError hcheck⟩
  · rintro ⟨loaded, hload, rfl, hvalid⟩
    show ((load content? env).mapError StartError.load >>= fun loaded ↦ _) = _
    rw [hload]
    show ((loaded.override a.overrides).validate.mapError StartError.refused >>= fun _ ↦ _) = _
    rw [hvalid]
    rfl

/-- The settings of a command line are those that its options, the environment and the file convert
to, as long as they pass their check, every index is in place and what is replaced is sound. -/
theorem settings_ok_iff_converts (hfile : fileLayer content? = .ok file) :
    a.settings content? env = .ok s ↔
      (Converts (a.overrides.over (stated? file env)) s ∧ s.validate = .ok ()) ∧
        InPlace file env ∧ ReplacesSound a.overrides (stated? file env) := by
  rw [settings_ok_iff]
  constructor
  · rintro ⟨loaded, hload, rfl, hvalid⟩
    obtain ⟨hplace, hloaded, hcheck⟩ := (load_ok_iff hfile).mp hload
    obtain ⟨hnetwork, hengine, -⟩ := validate_eq_ok_iff.mp hcheck
    exact ⟨⟨hloaded.override, hvalid⟩, hplace, hloaded.replacesSound hnetwork hengine⟩
  · rintro ⟨⟨hs, hvalid⟩, hplace, hsound⟩
    obtain ⟨loaded, hloaded⟩ := hsound.exists_converts hs
    obtain rfl : loaded.override a.overrides = s := hloaded.override.unique hs
    have hcheck : loaded.validate = .ok () := by
      refine validate_of_override hvalid (fun hoption ↦ ?_) (fun hoption ↦ ?_)
      · exact mem_of_becomes hloaded.network (by decide) (hsound.network hoption)
      · exact mem_of_becomes hloaded.engine (by decide) (hsound.engine hoption)
    exact ⟨loaded, (load_ok_iff hfile).mpr ⟨hplace, hloaded, hcheck⟩, rfl, hvalid⟩

/-- The second check finds fault with an option only. -/
theorem option_of_refused (h : a.settings content? env = .error (.refused fault)) :
    (∃ name, a.overrides.network = some name ∧ fault = .unsupportedNetwork name) ∨
      ∃ name, a.overrides.engine = some name ∧ fault = .unknownEngine name := by
  rcases error_of_bind h with h | ⟨loaded, hload, h⟩
  · obtain ⟨e, -, he⟩ := error_of_mapError h
    cases he
  obtain ⟨hnetwork, hengine, hinflight, hcapacity⟩ :=
    validate_eq_ok_iff.mp (validate_of_load (eq_ok_of_mapError hload))
  rcases error_of_bind h with h | ⟨⟨⟩, -, h⟩
  · obtain ⟨fault', hcheck, hfault⟩ := error_of_mapError h
    obtain rfl := StartError.refused.inj hfault
    cases validate_eq_error_iff.mp hcheck with
    | network hbad =>
        refine .inl ?_
        cases hoption : a.overrides.network with
        | none => exact absurd hnetwork (by simpa [Settings.override, hoption] using hbad)
        | some name => exact ⟨name, rfl, by simp [Settings.override, hoption]⟩
    | engine _ hbad =>
        refine .inr ?_
        cases hoption : a.overrides.engine with
        | none => exact absurd hengine (by simpa [Settings.override, hoption] using hbad)
        | some name => exact ⟨name, rfl, by simp [Settings.override, hoption]⟩
    | maxInflightRequests _ _ hbad => exact absurd hbad hinflight
    | eventQueueCapacity _ _ _ hbad => exact absurd hbad hcapacity
  · cases h

/-- Take a file that can be read, an environment and options.  A command line goes on with certain
settings exactly if they are what the options, else the environment, else the file, else the
defaults convert to, and they pass their check, and two more conditions hold: every index of a key
is in place, and whatever an option replaces would have passed as well.  Where these hold, it makes
no difference what is replaced.  Once file and environment have passed their check, only the
network or the engine of an option is refused. -/
theorem settings_with_options (a : Arguments) (hfile : fileLayer content? = .ok file) :
    let final? := a.overrides.over (stated? file env)
    (∀ s, a.settings content? env = .ok s ↔
        (Converts final? s ∧ s.validate = .ok ()) ∧
          InPlace file env ∧ ReplacesSound a.overrides (stated? file env)) ∧
      (∀ otherContent? otherFile otherEnv, fileLayer otherContent? = .ok otherFile →
        (∀ f, a.overrides.value? f = none → stated? otherFile otherEnv f = stated? file env f) →
        InPlace file env → ReplacesSound a.overrides (stated? file env) →
        InPlace otherFile otherEnv → ReplacesSound a.overrides (stated? otherFile otherEnv) →
          ∀ s, a.settings otherContent? otherEnv = .ok s ↔ a.settings content? env = .ok s) ∧
      ∀ fault, a.settings content? env = .error (.refused fault) →
        (∃ name, a.overrides.network = some name ∧ fault = .unsupportedNetwork name) ∨
          ∃ name, a.overrides.engine = some name ∧ fault = .unknownEngine name := by
  intro final?
  refine ⟨fun s ↦ settings_ok_iff_converts hfile, ?_, fun fault ↦ option_of_refused⟩
  intro otherContent? otherFile otherEnv hother hsame hplace hsound hplace' hsound' s
  have hfinal : a.overrides.over (stated? otherFile otherEnv) = final? := by
    funext f
    by_cases hoption : a.overrides.value? f = none
    · simp only [final?, Overrides.over, hsame f hoption]
    · obtain ⟨v, hv⟩ := Option.ne_none_iff_exists'.mp hoption
      simp only [final?, Overrides.over, hv, Option.some_or]
  rw [settings_ok_iff_converts hother, settings_ok_iff_converts hfile, hfinal]
  constructor
  · exact fun h ↦ ⟨h.1, hplace, hsound⟩
  · exact fun h ↦ ⟨h.1, hplace', hsound'⟩

/-- Options over a file whose network is bad, but has given way to a variable that is good. -/
theorem options_over_shadowed_file :
    let a : Arguments := { overrides := { network := some "tcp6", port := some 7000 } }
    let content := bytesOf "network = \"udp\"\nport = 80\nauth = \"s\"\n"
    let env := [("KECE_NETWORK", "tcp4"), ("KECE_ENGINE", "sled")]
    (∃ file, fileLayer (some content) = .ok file) ∧
      a.settings (some content) env =
        .ok { network := "tcp6", port := 7000, auth := "s", engine := "sled" } := by
  intro a content env
  let file : Layer := (fileLayer (some content)).toOption.getD []
  have hfile : fileLayer (some content) = .ok file := eq_ok_of_isOk (by decide +kernel) []
  have hplace : InPlace file env := ⟨_, eq_ok_of_isOk (by decide +kernel) .nothing⟩
  have hstated : ofValues (stated? file env) =
      .ok { network := "tcp4", port := 80, auth := "s", engine := "sled" } := by
    decide +kernel
  have hsound : ReplacesSound a.overrides (stated? file env) :=
    (ofValues_eq_ok_iff.mp hstated).replacesSound (by decide) (by decide)
  have hfinal : ofValues (a.overrides.over (stated? file env)) =
      .ok { network := "tcp6", port := 7000, auth := "s", engine := "sled" } := by
    decide +kernel
  exact ⟨⟨file, hfile⟩, ((settings_with_options a hfile).1 _).mpr
    ⟨⟨ofValues_eq_ok_iff.mp hfinal, rfl⟩, hplace, hsound⟩⟩

/-- An option does not mend a network that is bad, nor a port that is none. -/
theorem option_does_not_mend :
    let a : Arguments := { overrides := { network := some "tcp6", port := some 7000 } }
    let s : Settings := { network := "tcp6", port := 7000 }
    let badNetwork := [("KECE_NETWORK", "udp")]
    let badPort := [("KECE_PORT", "x")]
    CommandLine.parse ["--network", "tcp6", "--port", "7000"] = .ok (.run a) ∧
      s.validate = .ok () ∧
      Converts (a.overrides.over (stated? [] badNetwork)) s ∧
        a.settings none badNetwork = .error (.load (.refused (.unsupportedNetwork "udp"))) ∧
      Converts (a.overrides.over (stated? [] badPort)) s ∧
        a.settings none badPort = .error (.load (.wrongKind .port)) := by
  intro a s badNetwork badPort
  have hnetwork : ofValues (a.overrides.over (stated? [] badNetwork)) = .ok s := by decide +kernel
  have hport : ofValues (a.overrides.over (stated? [] badPort)) = .ok s := by decide +kernel
  exact ⟨by decide +kernel, rfl, ofValues_eq_ok_iff.mp hnetwork, by decide +kernel,
    ofValues_eq_ok_iff.mp hport, by decide +kernel⟩

end Arguments

end KvServer
