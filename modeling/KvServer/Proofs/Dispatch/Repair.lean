import KvServer.Proofs.Dispatch.Effect
import KvServer.Proofs.Store.Decoding

/-!
# Values that cannot be read

On a durable tree a value, or the mark of a client, may be bytes that are no text.  A `GET` of the
value then fails and the client is refused, as if nothing were stored; a `DEL` succeeds all the
same, and a `SET`, a `DEL` or an `AUTH` leaves what it always does (`Mending`).  Together with what
the tree answers itself this holds after every use of it (`sound_over_any_bytes`).
-/

namespace KvServer

open Function Text

namespace Dispatch

variable {s : TimedStore Tree} {secret : Option String} {client reader key value : String}
  {frame : Bytes} {c : Command}

/-- A client has the mark, if one is asked for. -/
def LetIn (secret : Option String) (client : String) (t : Tree) : Prop :=
  ∀ x ∈ secret, t.contents (bytesOf client) = some (bytesOf x)

theorem authorized_of_letIn (h : LetIn secret client s.store)
    (body : TimedStore Tree → Reply × TimedStore Tree) :
    authorized secret client body s = body s := by
  cases secret with
  | none => rfl
  | some x =>
      have hmarked : (s.call (.get client)).1 = .ok x := Tree.get_eq_ok_iff.mpr (h x rfl)
      exact authorized_of_marked body hmarked

theorem execute_get_of_letIn (h : LetIn secret client s.store)
    (hparse : Command.parse frame = .ok (.get key)) :
    execute secret client frame s = (valueOf (s.store.get key), s) := by
  rw [execute_of_ok hparse, run, authorized_of_letIn h, get_eq]
  rfl

theorem execute_set_of_letIn {ttl : Option Nat} (h : LetIn secret client s.store)
    (hparse : Command.parse frame = .ok (.set key value ttl)) :
    (execute secret client frame s).1 = .ok ∧
      (execute secret client frame s).2.store = s.store.put key (bytesOf value) := by
  have happly : Store.call (.set key value) s.store =
      (.ok (), s.store.put key (bytesOf value)) := rfl
  rw [execute_of_ok hparse, run, authorized_of_letIn h, set_eq, TimedStore.write_of_ok _ happly]
  exact ⟨rfl, TimedStore.rearm_store _⟩

theorem execute_del_of_letIn (h : LetIn secret client s.store)
    (hparse : Command.parse frame = .ok (.del key))
    (hstored : s.store.contents (bytesOf key) ≠ none) :
    (execute secret client frame s).1 = .ok ∧
      (execute secret client frame s).2.store = (s.store.delete key).2 := by
  have happly : Store.call (.delete key) s.store = (.ok (), (s.store.delete key).2) :=
    Prod.ext (Tree.delete_eq_ok_iff.mpr hstored) rfl
  rw [execute_of_ok hparse, run, authorized_of_letIn h, del_eq, TimedStore.write_of_ok _ happly]
  exact ⟨rfl, TimedStore.rearm_store _⟩

theorem execute_auth {x : String} (hparse : Command.parse frame = .ok (.auth x)) :
    execute (some x) client frame s =
      (.ok, { s with store := s.store.put client (bytesOf x) }) := by
  rw [execute_of_ok hparse, run, authenticate_some, if_pos rfl]
  rfl

/-- A client is let in exactly if it has the mark, and else nothing happens. -/
theorem execute_refused_iff {x : String} (hparse : Command.parse frame = .ok c)
    (hc : c.NeedsMark) :
    ((execute (some x) client frame s).1 = .invalidAuth ↔ ¬ LetIn (some x) client s.store) ∧
      (¬ LetIn (some x) client s.store → execute (some x) client frame s = (.invalidAuth, s)) := by
  have hiff : (s.call (.get client)).1 ≠ .ok x ↔ ¬ LetIn (some x) client s.store := by
    have hget : (s.call (.get client)).1 = .ok x ↔
        s.store.contents (bytesOf client) = some (bytesOf x) := Tree.get_eq_ok_iff
    rw [ne_eq, hget]
    simp only [LetIn, Option.mem_some, forall_eq']
  obtain ⟨hrefused, hsame⟩ := run_eq_invalidAuth_iff hc x client s
  rw [execute_of_ok hparse, hrefused, ← hiff]
  exact ⟨Iff.rfl, fun h ↦ Prod.ext (hrefused.mpr h) (hsame (hrefused.mpr h))⟩

theorem not_letIn_of_unreadable {t : Tree} (h : t.Unreadable client) (x : String) :
    ¬ LetIn (some x) client t := by
  intro hmark
  obtain ⟨bytes, hbytes, hmalformed⟩ := h
  cases hbytes.symm.trans (hmark x rfl)
  exact not_malformed_bytesOf x hmalformed

/-- How a dispatcher deals with what cannot be read, and what its commands leave there. -/
structure Mending (secret : Option String) (s : TimedStore Tree) : Prop where
  get_unreadable : ∀ client key frame, Command.parse frame = .ok (.get key) →
    LetIn secret client s.store → s.store.Unreadable key →
    execute secret client frame s = (.error, s)
  refused : ∀ client frame c, secret ≠ none → Command.parse frame = .ok c → c.NeedsMark →
    s.store.Unreadable client → execute secret client frame s = (.invalidAuth, s)
  set : ∀ client key value ttl frame, Command.parse frame = .ok (.set key value ttl) →
    LetIn secret client s.store →
    let out := execute secret client frame s
    out.1 = .ok ∧
      out.2.store.contents = update s.store.contents (bytesOf key) (some (bytesOf value)) ∧
      ∀ reader get, Command.parse get = .ok (.get key) → LetIn secret reader out.2.store →
        (execute secret reader get out.2).1 = .value value
  del : ∀ client key frame, Command.parse frame = .ok (.del key) → LetIn secret client s.store →
    s.store.contents (bytesOf key) ≠ none →
    let out := execute secret client frame s
    out.1 = .ok ∧ out.2.store.contents = update s.store.contents (bytesOf key) none ∧
      (Store.call (.get key) out.2.store).1 = .error (.notFound key)
  auth : ∀ x client frame, secret = some x → Command.parse frame = .ok (.auth x) →
    let out := execute secret client frame s
    out.1 = .ok ∧
      out.2.store.contents = update s.store.contents (bytesOf client) (some (bytesOf x)) ∧
      ∀ later c, Command.parse later = .ok c → c.NeedsMark →
        (execute secret client later out.2).1 ≠ .invalidAuth

theorem mending (secret : Option String) (s : TimedStore Tree) : Mending secret s where
  get_unreadable client key frame hparse hletIn hunreadable := by
    obtain ⟨message, hget⟩ := Tree.exists_get_eq_backend_iff.mpr hunreadable
    rw [execute_get_of_letIn hletIn hparse, hget]
    rfl
  refused client frame c hsecret hparse hc hunreadable := by
    obtain ⟨x, rfl⟩ := Option.ne_none_iff_exists'.mp hsecret
    exact (execute_refused_iff hparse hc).2 (not_letIn_of_unreadable hunreadable x)
  set client key value ttl frame hparse hletIn := by
    obtain ⟨hok, hstore⟩ := execute_set_of_letIn hletIn hparse
    refine ⟨hok, by rw [hstore, Tree.contents_put], fun reader get hget hreader ↦ ?_⟩
    rw [execute_get_of_letIn hreader hget, hstore, Tree.get_put]
    rfl
  del client key frame hparse hletIn hstored := by
    obtain ⟨hok, hstore⟩ := execute_del_of_letIn hletIn hparse hstored
    simp only [hstore]
    exact ⟨hok, s.store.contents_delete key, Tree.get_delete key s.store⟩
  auth x client frame hsecret hparse := by
    subst hsecret
    rw [execute_auth hparse]
    refine ⟨rfl, s.store.contents_put client (bytesOf x), fun later c hlater hc ↦ ?_⟩
    have hletIn : LetIn (some x) client (s.store.put client (bytesOf x)) := by
      rintro y ⟨⟩
      rw [Tree.contents_put, update_self]
    rw [ne_eq, (execute_refused_iff hlater hc).1, not_not]
    exact hletIn

/-- Take a tree with any bytes in it, and any calls on it and any closing and opening again.  What
it holds then follows from what it held; its answers tell exactly what it holds, be it text or not,
and a call touches its own key only; and a dispatcher on it, in any state, fails to read a value
that is no text, refuses a client whose mark is none, and mends both by a `SET`, a `DEL` or an
`AUTH`. -/
theorem sound_over_any_bytes (t : Tree) (us : List Tree.Use) :
    let last := t.after us
    last.contents = us.foldl (fun v u ↦ u.effect v) t.contents ∧ last.Sound ∧
      ∀ (secret : Option String) (s : TimedStore Tree), s.store = last → Mending secret s :=
  ⟨t.contents_after us, (t.after us).sound, fun secret s _ ↦ mending secret s⟩

/-- Bytes that are no text under `k` and as the mark of `P`: `k` cannot be read and `P` is shut out,
until `Q` removes the one and an `AUTH` of `P` puts the mark in place of the other. -/
theorem foreign_bytes_mended :
    let t : Tree := (({} : Tree).put "k" [0xff]).put "P" [0xc3, 0x28]
    let us : List Tree.Use :=
      [.call (.auth "Q" "s"), .call (.get "k"), .reopen, .call (.delete "x"), .call .flush]
    let s : TimedStore Tree := { store := t.after us }
    let send (client frame : String) := execute (some "s") client (bytesOf frame)
    send "Q" "GET k" s = (.error, s) ∧ send "P" "GET k" s = (.invalidAuth, s) ∧
      (send "Q" "DEL k" s).1 = .ok ∧
      (Store.call (.get "k") (send "Q" "DEL k" s).2.store).1 = .error (.notFound "k") ∧
      (send "P" "AUTH s" s).1 = .ok ∧
      (send "P" "SET k v" (send "P" "AUTH s" s).2).1 ≠ .invalidAuth := by
  intro t us s send
  obtain ⟨hcontents, -, hmending⟩ := sound_over_any_bytes t us
  obtain ⟨hget, hrefused, -, hdel, hauth⟩ := hmending (some "s") s rfl
  have hk : s.store.contents (bytesOf "k") = some [0xff] := by
    rw [hcontents]
    decide +kernel
  have hP : s.store.contents (bytesOf "P") = some [0xc3, 0x28] := by
    rw [hcontents]
    decide +kernel
  have hQ : LetIn (some "s") "Q" s.store := by
    rintro _ ⟨⟩
    rw [hcontents]
    decide +kernel
  obtain ⟨hdeleted, -, hgone⟩ :=
    hdel "Q" "k" (bytesOf "DEL k") (by decide +kernel) hQ (by simp [hk])
  obtain ⟨hmarked, -, hadmitted⟩ := hauth "s" "P" (bytesOf "AUTH s") rfl (by decide +kernel)
  refine ⟨hget "Q" "k" _ (by decide +kernel) hQ ⟨_, hk, ?_⟩,
    hrefused "P" _ (.get "k") (by simp) (by decide +kernel) (by trivial) ⟨_, hP, ?_⟩,
    hdeleted, hgone, hmarked,
    hadmitted (bytesOf "SET k v") (.set "k" "v" none) (by decide +kernel) (by trivial)⟩
  · exact exists_stringOf_eq_error_iff.mp ⟨_, rfl⟩
  · exact exists_stringOf_eq_error_iff.mp ⟨_, rfl⟩

end Dispatch

end KvServer
