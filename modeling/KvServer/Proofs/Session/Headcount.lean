import KvServer.Proofs.Expiry.Supersession
import KvServer.Proofs.Session.Conservation
import KvServer.Proofs.Session.Endings
import KvServer.Proofs.Session.Membership
import Mathlib.Data.List.Dedup

/-!
# How many clients are registered

The departure of a client may be reported any number of times: by its reader when it ends, and by
others before or after that.  The event loop takes the reports in order.  With the first report of
a client it takes the client out of the registry and, if marks go with their clients, makes a task
that takes the mark away; the other reports change nothing (`Departures`).  So the clients that are
registered in an idle session are those of the connections whose departure was never reported
(`registry_counts_live_clients`).
-/

namespace KvServer

open Text

/-- The address whose mark a task takes away. -/
def Task.revoked : Task → List String
  | .revoke identity => [identity]
  | .reply _ | .finish _ => []

/-- An element counts once, wherever it is added. -/
theorem dedup_concat_perm {α : Type} [DecidableEq α] (as : List α) (a : α) :
    (as ++ [a]).dedup.Perm (if a ∈ as then as.dedup else a :: as.dedup) := by
  have hfront := (List.perm_append_singleton a as).dedup
  by_cases ha : a ∈ as
  · rw [if_pos ha]
    rwa [List.dedup_cons_of_mem ha] at hfront
  · rw [if_neg ha]
    rwa [List.dedup_cons_of_notMem ha] at hfront

namespace Session

namespace Event

variable {σ : Type}

/-- The number of the client that an event is for.  The task of a departure is for an address, and
time and the operator's doings are for no one. -/
def client? (s : Session σ) : Event → Option Nat
  | .outside (.connect ..) => some s.connections.length
  | .outside (.send i _) | .outside (.finish i) | .outside (.vanish i _)
  | .outside (.unregister i) | .reader i | .quit i => some i
  | .outside (.advance _) | .outside .wait | .outside (.signal _) | .outside (.fault ..)
  | .outside (.direct _) | .stopLoop => none
  | .takeRequest => s.requests.head?.map fun r ↦ r.client.id
  | .takeDeparture => s.departures.head?.map Client.id
  | .task k => s.tasks[k]?.bind fun t ↦ t.request.head?.map fun r ↦ r.client.id

/-- Whether an event registers a connection. -/
def registers : Event → Bool
  | .outside (.connect ..) => true
  | _ => false

/-- The client whose departure an event reports: someone else does so, or its reader ends. -/
def reports (s s' : Session σ) : Event → List Client
  | .outside (.unregister i) => (s.connections[i]?.map Connection.client).toList
  | .reader i | .quit i =>
      match s.connections[i]?, s'.connections[i]? with
      | some before, some after =>
          if !before.isClosed && after.isClosed then [before.client] else []
      | _, _ => []
  | _ => []

/-- The calls on the store with which the task of a departure takes a mark away. -/
def revocationCalls (s s' : Session (Recorded σ)) : Event → List Call
  | .task k =>
      match s.tasks[k]? with
      | some (.revoke _) => (Race.callsSince s.data.store s'.data.store).map Note.call
      | _ => []
  | _ => []

end Event

namespace Deed

variable {ds new : List Deed} {c : Client}

/-- The clients whose departure the event loop has taken. -/
def departed (ds : List Deed) : List Client :=
  ds.filterMap fun
    | .depart c => some c
    | _ => none

/-- The addresses whose marks were taken away. -/
def revoked (ds : List Deed) : List String :=
  ds.filterMap fun
    | .revoke identity => some identity
    | _ => none

@[simp] theorem departed_append (ds new : List Deed) :
    departed (ds ++ new) = departed ds ++ departed new :=
  List.filterMap_append

@[simp] theorem revoked_append (ds new : List Deed) :
    revoked (ds ++ new) = revoked ds ++ revoked new :=
  List.filterMap_append

theorem mem_departed : c ∈ departed ds ↔ .depart c ∈ ds := by
  simp only [departed, List.mem_filterMap]
  constructor
  · rintro ⟨d, hd, hc⟩
    cases d with
    | depart c' => cases hc; exact hd
    | arrive | read | enqueue | take | reply | finish | revoke => cases hc
  · exact fun h ↦ ⟨_, h, rfl⟩

theorem departed_eq_nil (h : ∀ c, .depart c ∉ ds) : departed ds = [] :=
  List.eq_nil_iff_forall_not_mem.mpr fun c hc ↦ h c (mem_departed.mp hc)

theorem revoked_eq_nil (h : ∀ identity, .revoke identity ∉ ds) : revoked ds = [] := by
  refine List.filterMap_eq_nil_iff.mpr fun d hd ↦ ?_
  cases d with
  | revoke identity => exact absurd hd (h identity)
  | arrive | read | enqueue | take | reply | finish | depart => rfl

@[simp] theorem departed_arrivals (i : Nat) (bytes : Bytes) : departed (arrivals i bytes) = [] := by
  cases bytes <;> rfl

@[simp] theorem revoked_arrivals (i : Nat) (bytes : Bytes) : revoked (arrivals i bytes) = [] := by
  cases bytes <;> rfl

end Deed

/-- What has come in is noted as such. -/
theorem Step.eq_arrive_of_mem_arrivals {σ : Type} {s : Session σ} {st : Step} {d : Deed}
    (h : d ∈ st.arrivals s) : ∃ i bytes, d = .arrive i bytes := by
  cases st with
  | connect | send | vanish =>
      rw [Step.arrivals] at h
      split at h
      · exact ⟨_, _, Session.eq_arrive_of_mem_arrivals h⟩
      · cases h
  | finish | unregister | advance | wait | signal | fault | direct => cases h

theorem mem_readerDeeds {σ : Type} {s s' : Session σ} {i : Nat} {d : Deed}
    (h : d ∈ readerDeeds i s s') : ∃ r, d = .read r ∨ d = .enqueue r := by
  rcases List.mem_append.mp h with h | h
  · split at h
    · unfold Connection.readSince at h
      split at h
      · exact ⟨_, .inl (List.mem_singleton.mp h)⟩
      · cases h
    · cases h
  · obtain ⟨r, -, rfl⟩ := List.mem_map.mp h
    exact ⟨r, .inr rfl⟩

open Deed

section Places

variable {σ : Type}

/-- The addresses whose marks are still to be taken away. -/
def revoking (s : Session σ) : List String := s.tasks.flatMap Task.revoked

end Places

variable {σ : Type} [Store σ] {s s' t : Session (Recorded σ)} {e : Event} {es : List Event}
  {ds new : List Deed} {client : Client} {o : SessionOptions}

/-! ## What one event does -/

/-- How an event changes who is registered, the number of connections and the queue of departures. -/
inductive RollChange (s s' : Session (Recorded σ)) : Event → Prop
  | connect {identity : String} {m : Medium}
      (hregistry : s'.registry = (s.registry.enroll ⟨s.connections.length, identity⟩).2)
      (hlength : s'.connections.length = s.connections.length + 1)
      (hdepartures : s'.departures = s.departures) : RollChange s s' (.outside (.connect identity m))
  | takeDeparture {client : Client} (hregistry : s'.registry = (s.registry.remove client.id).2)
      (hlength : s'.connections.length = s.connections.length)
      (hdepartures : s.departures = client :: s'.departures) : RollChange s s' .takeDeparture
  | other {e : Event} (htakes : e ≠ .takeDeparture) (hregisters : e.registers = false)
      (hregistry : s'.registry = s.registry)
      (hlength : s'.connections.length = s.connections.length)
      (hdepartures : s'.departures = s.departures ++ e.reports s s') : RollChange s s' e

theorem rollChange_of_act (hgoing : s.Going) (st : Step) :
    RollChange s (s.act st).2 (.outside st) := by
  cases st with
  | connect identity m =>
      simp only [act, Session.connect, hgoing.running, if_true]
      exact .connect rfl (by simp) rfl
  | unregister i =>
      cases hc : s.connections[i]? <;>
        exact .other (by simp) rfl (by simp [act, reportDeparture, hgoing.running, hc])
          (by simp [act, reportDeparture, hgoing.running, hc])
          (by simp [act, reportDeparture, hgoing.running, hc, Event.reports])
  | send i bytes =>
      simp only [act]
      split
      · exact .other (by simp) rfl rfl (by simp [update]) (by simp [update, Event.reports])
      · exact .other (by simp) rfl rfl rfl (by simp [Event.reports])
  | finish | vanish | advance | wait | signal | fault | direct =>
      exact .other (by simp) rfl rfl (by simp [act, update]) (by simp [act, update, Event.reports])

omit [Store σ] in
theorem rollChange_of_reader (hnumbered : s.Numbered) (hgoing : s.Going) {i : Nat}
    (h : s.readerStep i = some s') : RollChange s s' (.reader i) := by
  obtain ⟨c, hc, hmove⟩ := readerStep_eq_some h
  obtain rfl := hnumbered i c hc
  cases hmove with
  | leave x hphase =>
      have hopen : c.isClosed = false := by
        rcases hphase with hphase | ⟨f, hphase⟩
        · rw [Connection.isClosed, hphase]
        · rw [Connection.isClosed, hphase]
      have hclosed : Connection.isClosed { c with phase := .left x } = true := rfl
      refine .other (by simp) rfl rfl (by simp [leave, update]) ?_
      simp [Event.reports, leave, update, hc, hopen, hclosed, hgoing.running]
  | hold | permit | enqueue =>
      refine .other (by simp) rfl rfl (by simp [update, Session.enqueue]) ?_
      simp [Event.reports, update, Session.enqueue, hc, Connection.isClosed]
  | detach hphase hrunning =>
      rw [hgoing.running] at hrunning
      cases hrunning

theorem rollChange_of_next (hnumbered : s.Numbered) (hgoing : s.Going) (h : e.next s = some s') :
    RollChange s s' e := by
  cases e with
  | outside st =>
      cases h
      exact rollChange_of_act hgoing st
  | stopLoop =>
      obtain ⟨-, hstop, -⟩ := stopLoop_eq_some h
      rw [hgoing.opened] at hstop
      cases hstop
  | takeRequest =>
      obtain ⟨-, r, rest, -, rfl⟩ := takeRequest_eq_some h
      exact .other (by simp) rfl rfl rfl (by simp [Event.reports])
  | takeDeparture =>
      obtain ⟨-, client, rest, hdepartures, rfl⟩ := takeDeparture_eq_some h
      rw [unregister_eq_revocations]
      exact .takeDeparture rfl rfl hdepartures
  | reader i => exact rollChange_of_reader hnumbered hgoing h
  | quit i =>
      rw [Event.next, readerQuit_of_not_stopped hgoing.opened] at h
      cases h
  | task k =>
      simp only [Event.next, taskStep] at h
      split at h <;> cases h <;>
        exact .other (by simp) rfl rfl (by simp [answer, update, release])
          (by simp [answer, update, release, Event.reports])

omit [Store σ] in
/-- An event changes the membership of no client but the one that it is for. -/
theorem RollChange.getElem?_members (h : RollChange s s' e) {j : Nat} (hj : e.client? s ≠ some j) :
    s'.registry.members[j]? = s.registry.members[j]? := by
  cases h with
  | connect hregistry =>
      rw [hregistry, Registry.getElem?_enroll, if_neg fun hid ↦ hj (congrArg some hid)]
  | takeDeparture hregistry hlength hdepartures =>
      have hne : _ ≠ j := fun hid ↦ hj (by rw [Event.client?, hdepartures, ← hid]; rfl)
      rw [hregistry, Registry.getElem?_remove, if_neg hne]
  | other htakes hregisters hregistry => rw [hregistry]

omit [Store σ] in
theorem RollChange.length_connections (h : RollChange s s' e) :
    s'.connections.length = s.connections.length + e.registers.toNat := by
  cases h with
  | connect hregistry hlength | takeDeparture hregistry hlength => exact hlength
  | other htakes hregisters hregistry hlength =>
      rw [hlength, hregisters, Bool.toNat_false, Nat.add_zero]

/-- A departure is noted when the event loop takes it. -/
theorem Event.departed_deeds (he : e ≠ .takeDeparture) : departed (e.deeds s s') = [] := by
  refine departed_eq_nil fun c hc ↦ ?_
  cases e with
  | outside st =>
      obtain ⟨i, bytes, hd⟩ := Step.eq_arrive_of_mem_arrivals hc
      cases hd
  | stopLoop | quit => cases hc
  | takeRequest =>
      obtain ⟨r, -, hd⟩ := List.mem_map.mp hc
      cases hd
  | takeDeparture => exact he rfl
  | reader i =>
      obtain ⟨r, hd | hd⟩ := mem_readerDeeds hc
      · cases hd
      · cases hd
  | task k =>
      rw [deeds] at hc
      split at hc <;> simp at hc

theorem Event.revoked_deeds (he : ∀ k, e ≠ .task k) : revoked (e.deeds s s') = [] := by
  refine revoked_eq_nil fun identity hd ↦ ?_
  cases e with
  | outside st =>
      obtain ⟨i, bytes, hd⟩ := Step.eq_arrive_of_mem_arrivals hd
      cases hd
  | stopLoop | quit => cases hd
  | takeRequest | takeDeparture =>
      obtain ⟨x, -, hx⟩ := List.mem_map.mp hd
      cases hx
  | reader i =>
      obtain ⟨r, hd | hd⟩ := mem_readerDeeds hd
      · cases hd
      · cases hd
  | task k => exact he k rfl

/-- The queue of departures is first in, first out, and every report gets into it. -/
theorem RollChange.departures (h : RollChange s s' e) :
    s.departures ++ e.reports s s' = departed (e.deeds s s') ++ s'.departures := by
  cases h with
  | connect hregistry hlength hdepartures =>
      rw [Event.departed_deeds (by simp), hdepartures]
      exact List.append_nil _
  | takeDeparture hregistry hlength hdepartures =>
      simp [Event.deeds, Event.reports, departed, hdepartures]
  | other htakes hregisters hregistry hlength hdepartures =>
      rw [Event.departed_deeds htakes, hdepartures, List.nil_append]

/-- The task of a departure deletes the entry of its address, if there is a secret. -/
theorem revocationCalls_next (h : e.next s = some s') :
    e.revocationCalls s s' =
      if s.options.secret.isSome then (revoked (e.deeds s s')).map .delete else [] := by
  by_cases he : ∀ k, e ≠ .task k
  · rw [Event.revoked_deeds he, List.map_nil, ite_self]
    cases e with
    | task k => exact absurd rfl (he k)
    | outside | stopLoop | takeRequest | takeDeparture | reader | quit => rfl
  obtain ⟨k, rfl⟩ : ∃ k, e = .task k := by simpa using he
  cases htask : s.tasks[k]? with
  | none => simp [Event.next, taskStep, htask] at h
  | some x =>
      cases x with
      | reply | finish => simp [Event.revocationCalls, Event.deeds, htask, revoked]
      | revoke identity =>
          simp only [Event.next, taskStep, htask, Option.some.injEq] at h
          subst h
          simp only [Event.revocationCalls, Event.deeds, htask, Race.callsSince, Dispatch.revoke]
          split
          · simp [TimedStore.call_snd, Recorded.notes_call, revoked]
          · simp

/-! ## What a course does -/

/-- What the events of a course give that can happen, one after the other. -/
def gather {α : Type} (f : Session (Recorded σ) → Session (Recorded σ) → Event → List α) :
    List Event → Session (Recorded σ) → List α
  | [], _ => []
  | e :: es, s =>
      match e.next s with
      | none => gather f es s
      | some s' => f s s' e ++ gather f es s'

/-- The departures that are reported in a course. -/
def reported (es : List Event) (s : Session (Recorded σ)) : List Client :=
  gather Event.reports es s

/-- The calls on the store with which marks are taken away in a course. -/
def revocationCalls (es : List Event) (s : Session (Recorded σ)) : List Call :=
  gather Event.revocationCalls es s

/-- How what is done from `s` to `t` accounts for the connections there, the departures that were
reported and the marks that were taken away. -/
structure Tally (s t : Session (Recorded σ)) (ds : List Deed) (registered : Nat)
    (reported : List Client) (calls : List Call) : Prop where
  options : t.options = s.options
  connections : t.connections.length = s.connections.length + registered
  departures : s.departures ++ reported = departed ds ++ t.departures
  calls : calls = if s.options.secret.isSome then (revoked ds).map .delete else []

omit [Store σ] in
theorem Tally.refl : Tally s s [] 0 [] [] where
  options := rfl
  connections := rfl
  departures := List.append_nil _
  calls := (ite_self _).symm

omit [Store σ] in
theorem Tally.trans {n m : Nat} {cs cs' : List Client} {calls calls' : List Call}
    (h : Tally s s' ds n cs calls) (hnext : Tally s' t new m cs' calls') :
    Tally s t (ds ++ new) (n + m) (cs ++ cs') (calls ++ calls') where
  options := hnext.options.trans h.options
  connections := by rw [hnext.connections, h.connections, Nat.add_assoc]
  departures := by
    rw [← List.append_assoc, h.departures, List.append_assoc, hnext.departures, departed_append,
      List.append_assoc]
  calls := by
    rw [h.calls, hnext.calls, h.options]
    split
    · rw [revoked_append, List.map_append]
    · rfl

theorem tally_next (hnumbered : s.Numbered) (hgoing : s.Going) (he : e.KeepsOn)
    (h : e.next s = some s') :
    Tally s s' (e.deeds s s') e.registers.toNat (e.reports s s') (e.revocationCalls s s') where
  options := (change_of_next hnumbered hgoing he h).options
  connections := (rollChange_of_next hnumbered hgoing h).length_connections
  departures := (rollChange_of_next hnumbered hgoing h).departures
  calls := revocationCalls_next h

/-- A connection is registered whenever it comes. -/
theorem Event.registers_of_next_eq_none (h : e.next s = none) : e.registers = false := by
  cases e with
  | outside st => cases h
  | stopLoop | takeRequest | takeDeparture | reader | quit | task => rfl

theorem tally_course (hnumbered : s.Numbered) (hgoing : s.Going) (hes : ∀ e ∈ es, e.KeepsOn) :
    Tally s (course es s).2 (course es s).1 (es.countP Event.registers) (reported es s)
      (revocationCalls es s) := by
  induction es generalizing s with
  | nil => exact .refl
  | cons e es ih =>
      have he : e.KeepsOn := hes e List.mem_cons_self
      have hes' : ∀ e ∈ es, e.KeepsOn := fun e he ↦ hes e (List.mem_cons_of_mem _ he)
      cases hnext : e.next s with
      | none =>
          rw [List.countP_cons, Event.registers_of_next_eq_none hnext]
          simpa [course, reported, revocationCalls, gather, hnext] using ih hnumbered hgoing hes'
      | some s' =>
          have hchange := change_of_next hnumbered hgoing he hnext
          have hafter := ih (hchange.numbered hnumbered) (hchange.going hgoing) hes'
          have htally := (tally_next hnumbered hgoing he hnext).trans hafter
          have hcount : (e :: es).countP Event.registers =
              e.registers.toNat + es.countP Event.registers := by
            rw [List.countP_cons, Nat.add_comm]
            cases e.registers <;> rfl
          rw [hcount]
          simpa [course, reported, revocationCalls, gather, hnext] using htally

/-! ## Who has gone -/

/-- What is known of the clients whose departure the event loop has taken: they are not registered,
and one task for each of them has been made to take its mark away, if that is to be done. -/
structure Departures (o : SessionOptions) (ds : List Deed) (s : Session (Recorded σ)) : Prop where
  options : s.options = o
  membership : Membership ds s
  gone : ∀ c ∈ departed ds, s.Knows c ∧ s.registry.members[c.id]? = none
  marks : (revoked ds ++ s.revoking).Perm
    (if o.revokeOnDisconnect && o.secret.isSome then (departed ds).dedup.map Client.identity else [])

/-- A client that is not registered does not get registered again. -/
theorem Change.members_eq_none (h : Change s e new s') (hknown : s.Knows client)
    (hnone : s.registry.members[client.id]? = none) :
    s'.registry.members[client.id]? = none := by
  cases h with
  | @connect _ newcomer m hid =>
      have hlt : client.id < s.connections.length := by
        obtain ⟨c, hc, -⟩ := hknown.exists_connection
        exact (List.getElem?_eq_some_iff.mp hc).1
      rw [Registry.getElem?_enroll, if_neg (by omega)]
      exact hnone
  | takeDeparture hdepartures => rw [Registry.getElem?_remove, hnone, ite_self]
  | idle | input | unregister | advance | tamper | takeRequest | hold | permit | enqueue | leave
  | reply | finish | revoke => exact hnone

theorem Departures.gone_change (hs : Departures o ds s) (h : Change s e new s')
    (hclient : client ∈ departed (ds ++ new)) :
    s'.Knows client ∧ s'.registry.members[client.id]? = none := by
  rw [departed_append] at hclient
  rcases List.mem_append.mp hclient with hold | hnew
  · obtain ⟨hknown, hnone⟩ := hs.gone client hold
    exact ⟨hknown.change h, h.members_eq_none hknown hnone⟩
  · cases h with
    | takeDeparture hdepartures =>
        obtain rfl : client = _ := by simpa [departed] using hnew
        refine ⟨hs.membership.departures _ (by simp [hdepartures]), ?_⟩
        rw [Registry.getElem?_remove, if_pos rfl]
    | connect | input => simp at hnew
    | idle | unregister | advance | tamper | takeRequest | hold | permit | enqueue | leave | reply
    | finish | revoke => simp [departed] at hnew

omit [Store σ] in
/-- The first departure of a client gives a task that takes its mark away, if that is to be done. -/
theorem Departures.revoked_revocations (hs : Departures o ds s) {rest : List Client}
    (hdepartures : s.departures = client :: rest) :
    (s.revocations client).flatMap Task.revoked =
      if client ∈ departed ds then []
      else if o.revokeOnDisconnect && o.secret.isSome then [client.identity] else [] := by
  have hknown : s.Knows client := hs.membership.departures client (by simp [hdepartures])
  by_cases hmem : client ∈ departed ds
  · obtain ⟨-, hnone⟩ := hs.gone client hmem
    simp [revocations, Registry.remove_fst, hnone, hmem]
  · have hmember := hs.membership.enrolled client hknown (mem_departed.not.mp hmem)
    rw [revocations, Registry.remove_fst, hmember, hs.options, if_neg hmem, Option.isSome_some,
      Bool.true_and]
    split <;> rfl

/-- While no departure is taken, an address whose mark is to be taken away waits for its task. -/
theorem Change.revoking_perm (h : Change s e new s') (hnew : departed new = []) :
    (revoked new ++ s'.revoking).Perm s.revoking := by
  cases h with
  | idle | unregister | advance | tamper | hold | permit | enqueue | leave =>
      simp [revoked, revoking, update, Session.enqueue]
  | connect | input => simp [revoking, update]
  | takeRequest hrequests => simp [revoked, revoking, Task.revoked]
  | takeDeparture => simp [departed] at hnew
  | @reply _ k r htask =>
      have hmoved := flatMap_modify_perm Task.revoked (fun _ ↦ .finish r) htask
      rw [← List.set_eq_modify] at hmoved
      simpa [revoked, revoking, Task.revoked] using hmoved
  | @finish _ k r htask =>
      have hgone := flatMap_eraseIdx_perm Task.revoked htask
      simpa [revoked, revoking, Task.revoked] using hgone
  | @revoke _ k identity htask =>
      have hgone := flatMap_eraseIdx_perm Task.revoked htask
      simpa [revoked, revoking, Task.revoked] using hgone

theorem Departures.marks_change (hs : Departures o ds s) (h : Change s e new s') :
    (revoked (ds ++ new) ++ s'.revoking).Perm
      (if o.revokeOnDisconnect && o.secret.isSome then
        (departed (ds ++ new)).dedup.map Client.identity
      else []) := by
  by_cases hnew : departed new = []
  · rw [revoked_append, departed_append, hnew, List.append_nil, List.append_assoc]
    exact ((h.revoking_perm hnew).append_left _).trans hs.marks
  cases h with
  | @takeDeparture _ client rest hdepartures =>
      have hmarks := hs.marks
      have htask := hs.revoked_revocations hdepartures
      have hdedup := (dedup_concat_perm (departed ds) client).map Client.identity
      have hdeparted : departed (ds ++ [.depart client]) = departed ds ++ [client] := by
        simp [departed]
      have hrevoked : revoked (ds ++ [.depart client]) = revoked ds := by simp [revoked]
      rw [hdeparted, hrevoked]
      simp only [revoking, List.flatMap_append, htask] at hmarks ⊢
      -- only the first departure of a client gives a task, and only the first one counts
      by_cases hmem : client ∈ departed ds
      · rw [if_pos hmem] at hdedup
        rw [if_pos hmem, List.append_nil]
        refine hmarks.trans ?_
        split
        · exact hdedup.symm
        · exact .nil
      · rw [if_neg hmem] at hdedup
        rw [if_neg hmem, ← List.append_assoc]
        split
        · rename_i hon
          rw [if_pos hon] at hmarks
          exact (List.perm_append_singleton _ _).trans ((hmarks.cons _).trans hdedup.symm)
        · rename_i hoff
          rwa [if_neg hoff, ← List.append_nil (revoked ds ++ _)] at hmarks
  | connect | input => simp at hnew
  | idle | unregister | advance | tamper | takeRequest | hold | permit | enqueue | leave | reply
  | finish | revoke => simp [departed] at hnew

theorem Departures.change (hs : Departures o ds s) (hnumbered : s.Numbered)
    (h : Change s e new s') : Departures o (ds ++ new) s' where
  options := h.options.trans hs.options
  membership := hs.membership.change hnumbered h
  gone _ := hs.gone_change h
  marks := hs.marks_change h

omit [Store σ]

theorem Departures.start (o : SessionOptions) (data : TimedStore (Recorded σ)) :
    Departures o [] { options := o, data, permits := o.maxInflight } where
  options := rfl
  membership := .start o data
  gone := by simp [departed]
  marks := by simp [revoked, revoking, departed]

theorem Numbered.id_eq (hs : s.Numbered) {j : Nat} (h : s.clients[j]? = some client) :
    client.id = j := by
  rw [clients, List.getElem?_map] at h
  obtain ⟨c, hc, rfl⟩ := Option.map_eq_some_iff.mp h
  exact hs j c hc

/-- The clients that are registered are those that have not gone. -/
theorem Departures.getElem?_members_iff (hs : Departures o ds s) (hnumbered : s.Numbered) {j : Nat} :
    s.registry.members[j]? = some client ↔ s.clients[j]? = some client ∧ client ∉ departed ds := by
  constructor
  · intro hmember
    have hj : j < s.clients.length := by
      by_contra hle
      rw [hs.membership.unused j (Nat.le_of_not_lt hle)] at hmember
      cases hmember
    obtain ⟨c, hc⟩ : ∃ c, s.clients[j]? = some c := ⟨_, List.getElem?_eq_getElem hj⟩
    obtain rfl := hnumbered.id_eq hc
    have hstays : c ∉ departed ds := by
      intro hgone
      rw [(hs.gone c hgone).2] at hmember
      cases hmember
    have hsame := hs.membership.enrolled c hc (mem_departed.not.mp hstays)
    obtain rfl : c = client := Option.some.inj (hsame.symm.trans hmember)
    exact ⟨hc, hstays⟩
  · rintro ⟨hc, hstays⟩
    obtain rfl := hnumbered.id_eq hc
    exact hs.membership.enrolled client hc (mem_departed.not.mp hstays)

/-- Every number is that of a client that is registered, or of one that has gone, and not both. -/
theorem Departures.size_eq (hs : Departures o ds s) (hnumbered : s.Numbered) :
    s.registry.size + (departed ds).dedup.length = s.connections.length := by
  have hkeys : ∀ j, j ∈ s.registry.members.keys ↔
      ∃ c, s.clients[j]? = some c ∧ c ∉ departed ds := by
    intro j
    rw [Std.ExtTreeMap.mem_keys, Std.ExtTreeMap.mem_iff_isSome_getElem?, Option.isSome_iff_exists]
    exact exists_congr fun c ↦ hs.getElem?_members_iff hnumbered
  have hgone : ∀ j, j ∈ (departed ds).dedup.map Client.id ↔
      ∃ c, s.clients[j]? = some c ∧ c ∈ departed ds := by
    intro j
    simp only [List.mem_map, List.mem_dedup]
    constructor
    · rintro ⟨c, hc, rfl⟩
      exact ⟨c, (hs.gone c hc).1, hc⟩
    · rintro ⟨c, hknown, hc⟩
      exact ⟨c, hc, hnumbered.id_eq hknown⟩
  -- those who are registered and those who have gone share the numbers of the connections
  have hnodup : (s.registry.members.keys ++ (departed ds).dedup.map Client.id).Nodup := by
    refine List.Nodup.append Std.ExtTreeMap.nodup_keys ?_ ?_
    · refine List.Nodup.map_on ?_ (List.nodup_dedup _)
      intro c hc d hd hid
      have hknown := (hs.gone c (List.mem_dedup.mp hc)).1
      rw [Knows, hid] at hknown
      exact Option.some.inj (hknown.symm.trans (hs.gone d (List.mem_dedup.mp hd)).1)
    · intro j hmember hleft
      obtain ⟨c, hc, hstays⟩ := (hkeys j).mp hmember
      obtain ⟨d, hd, hgone⟩ := (hgone j).mp hleft
      cases hc.symm.trans hd
      exact hstays hgone
  have hperm : (s.registry.members.keys ++ (departed ds).dedup.map Client.id).Perm
      (List.range s.connections.length) := by
    refine (List.perm_ext_iff_of_nodup hnodup List.nodup_range).mpr fun j ↦ ?_
    rw [List.mem_append, hkeys, hgone, List.mem_range, ← exists_or]
    have hlength : s.connections.length = s.clients.length := (List.length_map _).symm
    rw [hlength]
    constructor
    · rintro ⟨c, ⟨hc, -⟩ | ⟨hc, -⟩⟩ <;> exact (List.getElem?_eq_some_iff.mp hc).1
    · intro hj
      obtain ⟨c, hc⟩ : ∃ c, s.clients[j]? = some c := ⟨_, List.getElem?_eq_getElem hj⟩
      exact ⟨c, by simpa [hc] using (em' (c ∈ departed ds))⟩
  simpa [Registry.size, Std.ExtTreeMap.length_keys] using hperm.length_eq

/-! ## Idle sessions -/

/-- Who is registered in an idle session, and which calls were made for those who have gone: so many
connections were registered, and these departures were reported. -/
structure Headcount (o : SessionOptions) (registered : Nat) (reported : List Client)
    (calls : List Call) (s : Session (Recorded σ)) : Prop where
  count : ∃ n, s.clientCount = .ok n ∧ n + reported.dedup.length = registered
  members : ∀ (j : Nat) c,
    s.registry.members[j]? = some c ↔ s.clients[j]? = some c ∧ c ∉ reported
  calls : calls.Perm
    (if o.revokeOnDisconnect && o.secret.isSome then
      reported.dedup.map fun c ↦ .delete c.identity
    else [])

variable [Store σ]

theorem departures_course (o : SessionOptions) (data : TimedStore (Recorded σ))
    (hopen : data.channel.stopped = false) (hes : ∀ e ∈ es, e.KeepsOn) :
    let after := course es { options := o, data, permits := o.maxInflight }
    after.2.Numbered ∧ after.2.Going ∧ Departures o after.1 after.2 := by
  intro after
  have hgoing : Going { options := o, data, permits := o.maxInflight } := ⟨rfl, hopen⟩
  exact course_induction (P := Departures o) hes
    (fun _ _ _ _ _ _ hnumbered _ hs h ↦ hs.change hnumbered h) (by simp [Numbered]) hgoing
    (.start o data)

/-- When a session that starts empty is idle, every departure that was reported has been taken, and
every mark that was to go has gone. -/
theorem headcount_of_idle (o : SessionOptions) (data : TimedStore (Recorded σ))
    (hopen : data.channel.stopped = false) (hes : ∀ e ∈ es, e.KeepsOn) :
    let start : Session (Recorded σ) := { options := o, data, permits := o.maxInflight }
    (course es start).2.isIdle = true →
      Headcount o (es.countP Event.registers) (reported es start) (revocationCalls es start)
        (course es start).2 := by
  intro start hidle
  have hfirst : start.Numbered := by simp [start, Numbered]
  have htally := tally_course hfirst ⟨rfl, hopen⟩ hes
  obtain ⟨hnumbered, hgoing, hs⟩ := departures_course o data hopen hes
  obtain ⟨-, -, htaken, htasks, -⟩ := isIdle_iff.mp hidle
  have hreported : reported es start = departed (course es start).1 := by
    simpa [start, departures_eq_nil hgoing.running htaken] using htally.departures
  have hregistered : (course es start).2.connections.length = es.countP Event.registers := by
    simpa [start] using htally.connections
  rw [hreported, ← hregistered]
  have hcount : (course es start).2.clientCount = .ok (course es start).2.registry.size := by
    rw [clientCount, if_pos hgoing.running]
  refine ⟨⟨_, hcount, hs.size_eq hnumbered⟩, fun j c ↦ hs.getElem?_members_iff hnumbered, ?_⟩
  have hmarks := hs.marks
  rw [revoking, htasks, List.flatMap_nil, List.append_nil] at hmarks
  rw [htally.calls]
  by_cases hsecret : o.secret.isSome
  · rw [if_pos hsecret]
    have hcalls := hmarks.map Call.delete
    split
    · rename_i hon
      rwa [if_pos hon, List.map_map] at hcalls
    · rename_i hoff
      rwa [if_neg hoff, List.map_nil] at hcalls
  · rw [if_neg hsecret, if_neg (by simp [hsecret])]

/-- Take a session without a shutdown, and let connections, input, reports of departures, readers,
the event loop and tasks take their steps in any order.  No event changes the membership of a client
that it is not for, also if the two have the same address.  Whenever no one can go on, the event loop
counts the connections that were registered without the clients whose departure was reported, once
or more; these are the ones that are not registered; and if there is a secret and marks go with
their clients, the entry of the address of each of them has been deleted once for it. -/
theorem registry_counts_live_clients (o : SessionOptions) (data : TimedStore (Recorded σ))
    (es : List Event) (hopen : data.channel.stopped = false) (hes : ∀ e ∈ es, e.KeepsOn) :
    let start : Session (Recorded σ) := { options := o, data, permits := o.maxInflight }
    let s := (course es start).2
    (∀ (e : Event) (s' : Session (Recorded σ)) (j : Nat), e.next s = some s' →
      e.client? s ≠ some j → s'.registry.members[j]? = s.registry.members[j]?) ∧
    (s.isIdle = true →
      Headcount o (es.countP Event.registers) (reported es start) (revocationCalls es start) s) := by
  intro start s
  obtain ⟨hnumbered, hgoing, -⟩ := departures_course o data hopen hes
  exact ⟨fun _ _ _ hnext ↦ (rollChange_of_next hnumbered hgoing hnext).getElem?_members,
    headcount_of_idle o data hopen hes⟩

/-- Two clients of one address: three reports of the departure of the first, one of them of its
reader, take it out once, and the second stays. -/
theorem repeated_reports_count_once :
    let o : SessionOptions := { secret := some "s", revokeOnDisconnect := true }
    let es : List Event :=
      [.outside (.connect "i" .sound), .outside (.connect "i" .sound), .outside (.unregister 0),
        .outside (.unregister 0), .takeDeparture, .takeDeparture, .outside (.finish 0), .reader 0,
        .takeDeparture, .task 0]
    let start : Session (Recorded Memory) :=
      { options := o, data := { store := { store := ({} : Memory) } }, permits := o.maxInflight }
    let s := (course es start).2
    reported es start = List.replicate 3 ⟨0, "i"⟩ ∧ revocationCalls es start = [.delete "i"] ∧
      s.isIdle = true ∧
      Headcount o 2 (List.replicate 3 ⟨0, "i"⟩) [.delete "i"] s ∧
      s.registry.members[1]? = some ⟨1, "i"⟩ := by
  intro o es start s
  have hreported : reported es start = List.replicate 3 ⟨0, "i"⟩ := by decide +kernel
  have hcalls : revocationCalls es start = [.delete "i"] := by decide +kernel
  have hidle : s.isIdle = true := by decide +kernel
  have hregistered : es.countP Event.registers = 2 := by decide +kernel
  have hcount : Headcount o (es.countP Event.registers) (reported es start)
      (revocationCalls es start) s :=
    (registry_counts_live_clients o { store := { store := ({} : Memory) } } es rfl
      (by decide)).2 hidle
  rw [hregistered, hreported, hcalls] at hcount
  have hother : s.clients[1]? = some ⟨1, "i"⟩ ∧ ⟨1, "i"⟩ ∉ List.replicate 3 (⟨0, "i"⟩ : Client) := by
    decide +kernel
  exact ⟨hreported, hcalls, hidle, hcount, (hcount.members 1 _).mpr hother⟩

/-! ## Scripts -/

/-- After every line of a script without a shutdown, the event loop counts the connections that were
registered without the clients whose departure was reported. -/
theorem headcount_of_script (o : SessionOptions) (data : TimedStore (Recorded σ)) (sts : List Step)
    (hopen : data.channel.stopped = false) (hsts : ∀ st ∈ sts, Event.KeepsOn (.outside st)) :
    let start : Session (Recorded σ) := { options := o, data, permits := o.maxInflight }
    ∃ es, script es = sts ∧ (course es start).2 = (runSteps sts start).2 ∧
      Headcount o (sts.countP fun st ↦ Event.registers (.outside st)) (reported es start)
        (revocationCalls es start) (runSteps sts start).2 := by
  intro start
  obtain ⟨es, rfl, hend⟩ := exists_course sts start
  have hes : ∀ e ∈ es, e.KeepsOn := by
    intro e he
    constructor
    · rintro rfl
      exact (hsts _ (mem_script.mpr he)).1 rfl
    · rintro rfl
      exact (hsts _ (mem_script.mpr he)).2 rfl
  have hgoing : start.Going := ⟨rfl, hopen⟩
  have hfirst : start.isIdle = true := by
    rw [isIdle_iff]
    exact ⟨stopLoop_eq_none hgoing.opened, takeRequest_eq_none rfl, takeDeparture_eq_none rfl, rfl,
      by simp [start]⟩
  have hidle : (runSteps (script es) start).2.isIdle = true :=
    isIdle_runSteps (by simp [start, Numbered]) hfirst
  have hcount : (script es).countP (fun st ↦ Event.registers (.outside st)) =
      es.countP Event.registers := by
    rw [script, List.countP_filterMap]
    congr 1
    funext e
    cases e <;> rfl
  refine ⟨es, rfl, hend, ?_⟩
  rw [hcount, ← hend]
  exact headcount_of_idle o data hopen hes (by rwa [hend])

end Session

end KvServer
