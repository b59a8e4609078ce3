import KvServer.Proofs.Store.Encoding
import KvServer.Proofs.Store.Removal
import Mathlib.Logic.Function.Basic

/-!
# A tree that holds any bytes

The values of a tree may have come from outside and need not be texts.  `Tree.Use.effect` says what
a use of a tree does to the map of its bytes, and the tree does this in every run
(`Tree.contents_after`).  A look-up tells what is stored, whatever it is: a text, bytes that are no
text, or nothing (`Tree.sound`).
-/

namespace KvServer

open Function Text

/-- Bytes that are no text. -/
def Text.Malformed (bytes : Bytes) : Prop := ¬ bytes.toByteArray.IsValidUTF8

theorem Text.exists_stringOf_eq_error_iff {bytes : Bytes} :
    (∃ f, stringOf bytes = .error f) ↔ Malformed bytes := by
  constructor
  · rintro ⟨f, hf⟩ ⟨cs, hcs⟩
    have hbytes : bytesOf (.ofList cs) = bytes := by
      rw [bytesOf, String.toList_ofList]
      exact List.toByteArray_inj.mp hcs.symm
    rw [stringOf_eq_ok_iff.mpr hbytes] at hf
    cases hf
  · intro h
    cases hstring : stringOf bytes with
    | error f => exact ⟨f, rfl⟩
    | ok text =>
        rw [← stringOf_eq_ok_iff.mp hstring] at h
        exact absurd ⟨text.toList, rfl⟩ h

theorem Text.not_malformed_bytesOf (text : String) : ¬ Malformed (bytesOf text) :=
  fun h ↦ h ⟨text.toList, rfl⟩

namespace Tree

variable {t : Tree} {key text : String}

/-- The bytes stored under some bytes. -/
def contents (t : Tree) (bytes : Bytes) : Option Bytes := t.entries[bytes]?

/-- What is stored under a key is no text. -/
def Unreadable (key : String) (t : Tree) : Prop :=
  ∃ bytes, t.contents (bytesOf key) = some bytes ∧ Malformed bytes

/-- A call on a tree, or to close it and open it again. -/
inductive Use
  | call (c : Call)
  | reopen

def use : Use → Tree → Tree
  | .call c, t => (Store.call c t).2
  | .reopen, t => t.reopen

def after (us : List Use) (t : Tree) : Tree := us.foldl (fun t u ↦ t.use u) t

/-- What a use does to the map of bytes. -/
def Use.effect : Use → (Bytes → Option Bytes) → Bytes → Option Bytes
  | .call (.set key value), v | .call (.auth key value), v =>
      update v (bytesOf key) (some (bytesOf value))
  | .call (.delete key), v => update v (bytesOf key) none
  | .call (.get _), v | .call .flush, v | .reopen, v => v

/-- The key that a use is about. -/
def Use.key? : Use → Option String
  | .call c => c.key?
  | .reopen => none

/-! ## What a use leaves -/

theorem contents_put (key : String) (value : Bytes) (t : Tree) :
    (t.put key value).contents = update t.contents (bytesOf key) (some value) := by
  funext bytes
  by_cases h : bytesOf key = bytes
  · subst h
    simp [contents, put]
  · simp [contents, put, Std.ExtTreeMap.getElem?_insert, h, update_of_ne (Ne.symm h)]

theorem contents_delete (key : String) (t : Tree) :
    (t.delete key).2.contents = update t.contents (bytesOf key) none := by
  funext bytes
  rw [delete_snd]
  by_cases h : bytesOf key = bytes
  · subst h
    simp [contents]
  · simp [contents, Std.ExtTreeMap.getElem?_erase, h, update_of_ne (Ne.symm h)]

theorem contents_use (u : Use) (t : Tree) : (t.use u).contents = u.effect t.contents := by
  cases u with
  | reopen => rfl
  | call c =>
      cases c with
      | get key | flush => rfl
      | set key value | auth key value => exact t.contents_put key (bytesOf value)
      | delete key => exact t.contents_delete key

/-- In every run the bytes of a tree are what its uses make of them. -/
theorem contents_after (us : List Use) (t : Tree) :
    (t.after us).contents = us.foldl (fun v u ↦ u.effect v) t.contents := by
  induction us generalizing t with
  | nil => rfl
  | cons u us ih =>
      rw [List.foldl_cons, ← contents_use]
      exact ih (t.use u)

theorem Use.effect_of_ne {u : Use} {bytes : Bytes} (h : ∀ key ∈ u.key?, bytesOf key ≠ bytes)
    (v : Bytes → Option Bytes) : u.effect v bytes = v bytes := by
  cases u with
  | reopen => rfl
  | call c =>
      cases c with
      | get key | flush => rfl
      | set key value | auth key value | delete key => exact update_of_ne (Ne.symm (h key rfl)) _ _

/-! ## What a look-up finds -/

theorem get_of_none (h : t.contents (bytesOf key) = none) : t.get key = .error (.notFound key) := by
  rw [contents] at h
  rw [get, h]

theorem get_of_some {bytes : Bytes} (h : t.contents (bytesOf key) = some bytes) :
    t.get key = readValue key bytes := by
  rw [contents] at h
  rw [get, h]

theorem readValue_eq_ok_iff {bytes : Bytes} :
    readValue key bytes = .ok text ↔ bytes = bytesOf text := by
  rw [eq_comm (a := bytes), ← stringOf_eq_ok_iff, readValue]
  cases stringOf bytes <;> simp [Except.mapError]

theorem exists_readValue_eq_backend_iff {bytes : Bytes} :
    (∃ message, readValue key bytes = .error (.backend message)) ↔ Malformed bytes := by
  rw [← exists_stringOf_eq_error_iff, readValue]
  cases stringOf bytes <;> simp [Except.mapError]

theorem readValue_ne_notFound (key other : String) (bytes : Bytes) :
    readValue key bytes ≠ .error (.notFound other) := by
  rw [readValue]
  cases stringOf bytes <;> simp [Except.mapError]

theorem get_eq_ok_iff : t.get key = .ok text ↔ t.contents (bytesOf key) = some (bytesOf text) := by
  cases h : t.contents (bytesOf key) with
  | none => simp [get_of_none h]
  | some bytes => rw [get_of_some h, readValue_eq_ok_iff, Option.some.injEq]

theorem exists_get_eq_backend_iff :
    (∃ message, t.get key = .error (.backend message)) ↔ t.Unreadable key := by
  unfold Unreadable
  cases h : t.contents (bytesOf key) with
  | none => simp [get_of_none h]
  | some bytes => simp only [get_of_some h, exists_readValue_eq_backend_iff, Option.some.injEq,
      exists_eq_left']

theorem get_eq_notFound_iff :
    t.get key = .error (.notFound key) ↔ t.contents (bytesOf key) = none := by
  cases h : t.contents (bytesOf key) with
  | none => simp [get_of_none h]
  | some bytes => simp [get_of_some h, readValue_ne_notFound]

theorem delete_eq_ok_iff : (t.delete key).1 = .ok () ↔ t.contents (bytesOf key) ≠ none := by
  rw [delete_fst, contents, ← Option.isSome_iff_ne_none, ← Std.ExtTreeMap.mem_iff_isSome_getElem?]
  split <;> simp [*]

theorem get_delete (key : String) (t : Tree) :
    (t.delete key).2.get key = .error (.notFound key) :=
  get_of_none (by rw [contents_delete, update_self])

theorem get_put (key value : String) (t : Tree) : (t.put key (bytesOf value)).get key = .ok value :=
  get_eq_ok_iff.mpr (by rw [contents_put, update_self])

/-- What a tree answers, and what it keeps, whatever bytes it holds. -/
structure Sound (t : Tree) : Prop where
  get_ok : ∀ key text, (Store.call (.get key) t).1 = .ok text ↔
    t.contents (bytesOf key) = some (bytesOf text)
  get_backend : ∀ key, (∃ message, (Store.call (.get key) t).1 = .error (.backend message)) ↔
    t.Unreadable key
  get_notFound : ∀ key, (Store.call (.get key) t).1 = .error (.notFound key) ↔
    t.contents (bytesOf key) = none
  delete_ok : ∀ key, (Store.call (.delete key) t).1 = .ok () ↔ t.contents (bytesOf key) ≠ none
  get_delete : ∀ key, (Store.call (.get key) (Store.call (.delete key) t).2).1 =
    .error (.notFound key)
  get_set : ∀ key value, (Store.call (.set key value) t).1 = .ok () ∧
    (Store.call (.get key) (Store.call (.set key value) t).2).1 = .ok value
  get_auth : ∀ key value, (Store.call (.auth key value) t).1 = .ok () ∧
    (Store.call (.get key) (Store.call (.auth key value) t).2).1 = .ok value
  /-- A use of one key leaves what is stored under any other bytes. -/
  other : ∀ (u : Use) (bytes : Bytes), (∀ key ∈ u.key?, bytesOf key ≠ bytes) →
    (t.use u).contents bytes = t.contents bytes
  failed : ∀ (c : Call) (e : StoreError), (Store.call c t).1 = .error e → (Store.call c t).2 = t
  reading : ∀ key, (Store.call (.get key) t).2 = t
  flush : Store.call .flush t = (.ok (), t)
  reopen : t.reopen = t

theorem sound (t : Tree) : t.Sound where
  get_ok key text := get_eq_ok_iff
  get_backend key := exists_get_eq_backend_iff
  get_notFound key := get_eq_notFound_iff
  delete_ok key := delete_eq_ok_iff
  get_delete key := get_delete key t
  get_set key value := ⟨rfl, get_put key value t⟩
  get_auth key value := ⟨rfl, get_put key value t⟩
  other u bytes h := by rw [contents_use, Use.effect_of_ne h]
  failed c e := KeyedStore.eq_of_error
  reading key := rfl
  flush := rfl
  reopen := rfl

end Tree

end KvServer
