import KvServer.Proofs.Session.Course

/-!
# Who is registered

A client is registered from its connection on until the event loop takes its departure, and a
reader that leaves reports a departure.  Whoever has a request or a task, or is reported, is the
client of a connection (`Membership`).
-/

namespace KvServer

open Text

namespace Session

section Clients

variable {σ : Type}

/-- The clients of all connections. -/
def clients (s : Session σ) : List Client := s.connections.map Connection.client

/-- A client is that of the connection with its number. -/
def Knows (s : Session σ) (c : Client) : Prop := s.clients[c.id]? = some c

theorem exists_of_mem_modify {α : Type} {as : List α} {i : Nat} {g : α → α} {b : α}
    (h : b ∈ as.modify i g) : b ∈ as ∨ ∃ a, as[i]? = some a ∧ b = g a := by
  obtain ⟨j, hj⟩ := List.mem_iff_getElem?.mp h
  rw [List.getElem?_modify] at hj
  by_cases hij : i = j
  · subst hij
    obtain ⟨a, ha, rfl⟩ := Option.map_eq_some_iff.mp hj
    exact .inr ⟨a, ha, by simp⟩
  · simp only [hij, if_false, Option.map_eq_map, Option.map_id'] at hj
    exact .inl (List.mem_of_getElem? hj)

theorem clients_of_modify {s s' : Session σ} {i : Nat} {f : Connection → Connection}
    (hs' : s'.connections = s.connections.modify i f) (hf : ∀ d, (f d).client = d.client) :
    s'.clients = s.clients := by
  rw [clients, clients, hs', map_modify_of_eq hf]

theorem Knows.of_modify {s s' : Session σ} {i : Nat} {f : Connection → Connection} {c : Client}
    (hc : s'.Knows c) (hs' : s'.connections = s.connections.modify i f)
    (hf : ∀ d, (f d).client = d.client) : s.Knows c := by
  rwa [Knows, clients_of_modify hs' hf] at hc

theorem Knows.exists_connection {s : Session σ} {c : Client} (h : s.Knows c) :
    ∃ d, s.connections[c.id]? = some d ∧ d.client = c := by
  rwa [Knows, clients, List.getElem?_map, Option.map_eq_some_iff] at h

theorem Numbered.knows {s : Session σ} (hs : s.Numbered) {i : Nat} {c : Connection}
    (hc : s.connections[i]? = some c) : s.Knows c.client := by
  obtain rfl := hs i c hc
  rw [Knows, clients, List.getElem?_map, hc, Option.map_some]

end Clients

variable {σ : Type} [Store σ] {s s' : Session (Recorded σ)} {e : Event} {ds new : List Deed}
  {client : Client}

/-- Clients stay, and new ones come at the end. -/
theorem Change.clients_prefix (h : Change s e new s') : s.clients <+: s'.clients := by
  cases h with
  | idle | unregister | advance | tamper | takeRequest | takeDeparture | finish | revoke =>
      exact List.prefix_rfl
  | connect client m => exact ⟨[(newConnection client m).client], by simp [clients]⟩
  | input bytes hc hclient => exact ⟨[], (List.append_nil _).trans (clients_of_modify rfl hclient).symm⟩
  | hold | permit | enqueue | leave =>
      refine ⟨[], (List.append_nil _).trans (clients_of_modify rfl ?_).symm⟩
      exact fun _ ↦ rfl
  | reply => exact ⟨[], (List.append_nil _).trans (clients_of_modify rfl (client_deliver _)).symm⟩

theorem Knows.change (hc : s.Knows client) (h : Change s e new s') : s'.Knows client := by
  obtain ⟨more, hmore⟩ := h.clients_prefix
  obtain ⟨hlt, -⟩ := List.getElem?_eq_some_iff.mp hc
  rw [Knows, ← hmore, List.getElem?_append_left hlt]
  exact hc

theorem Change.mem_requests (h : Change s e new s') {r : Request} (hr : r ∈ s'.requests)
    (hnumbered : s.Numbered) : r ∈ s.requests ∨ s.Knows r.client := by
  cases h with
  | idle | connect | input | unregister | advance | tamper | takeDeparture | hold | permit | leave
  | reply | finish | revoke => exact .inl hr
  | takeRequest hrequests =>
      rw [hrequests]
      exact .inl (List.mem_cons_of_mem _ hr)
  | enqueue hc hphase =>
      rcases List.mem_append.mp hr with hr | hr
      · exact .inl hr
      · rw [List.mem_singleton.mp hr]
        exact .inr (hnumbered.knows hc)

theorem Change.mem_departures (h : Change s e new s') (hclient : client ∈ s'.departures)
    (hnumbered : s.Numbered) : client ∈ s.departures ∨ s.Knows client := by
  cases h with
  | idle | connect | input | advance | tamper | takeRequest | hold | permit | enqueue | reply
  | finish | revoke => exact .inl hclient
  | takeDeparture hdepartures =>
      rw [hdepartures]
      exact .inl (List.mem_cons_of_mem _ hclient)
  | unregister hc | leave hc =>
      rcases List.mem_append.mp hclient with hclient | hclient
      · exact .inl hclient
      · rw [List.mem_singleton.mp hclient]
        exact .inr (hnumbered.knows hc)

/-- The requests that have a task, or had one in a step. -/
theorem Change.mem_tasks (h : Change s e new s') {t : Task} {r : Request} (ht : t ∈ s'.tasks)
    (hr : r ∈ t.request) : r ∈ s.requests ∨ ∃ t ∈ s.tasks, r ∈ t.request := by
  cases h with
  | idle | connect | input | unregister | advance | tamper | hold | permit | enqueue | leave =>
      exact .inr ⟨t, ht, hr⟩
  | @takeRequest _ r' rest hrequests =>
      rcases List.mem_append.mp ht with ht | ht
      · exact .inr ⟨t, ht, hr⟩
      · rw [List.mem_singleton.mp ht] at hr
        rw [hrequests, List.mem_singleton.mp hr]
        exact .inl List.mem_cons_self
  | @takeDeparture _ client rest hdepartures =>
      rcases List.mem_append.mp ht with ht | ht
      · exact .inr ⟨t, ht, hr⟩
      · have hnone : r ∈ (s.revocations client).flatMap Task.request :=
          List.mem_flatMap.mpr ⟨t, ht, hr⟩
        rw [request_revocations] at hnone
        cases hnone
  | @reply _ k r' htask =>
      rcases List.mem_or_eq_of_mem_set ht with ht | rfl
      · exact .inr ⟨t, ht, hr⟩
      · exact .inr ⟨.reply r', List.mem_of_getElem? htask, hr⟩
  | finish htask | revoke htask => exact .inr ⟨t, List.mem_of_mem_eraseIdx ht, hr⟩

/-- A departure that is reported stays so until the event loop takes it. -/
theorem Change.departures_kept (h : Change s e new s') (hclient : client ∈ s.departures) :
    client ∈ s'.departures ∨ .depart client ∈ new := by
  cases h with
  | idle | connect | input | advance | tamper | takeRequest | hold | permit | enqueue | reply
  | finish | revoke => exact .inl hclient
  | unregister | leave => exact .inl (List.mem_append_left _ hclient)
  | takeDeparture hdepartures =>
      rw [hdepartures] at hclient
      rcases List.mem_cons.mp hclient with rfl | hclient
      · exact .inr (by simp)
      · exact .inl hclient

/-- A reader that has left had left before, or its departure is reported. -/
theorem Change.mem_closed (h : Change s e new s') {c : Connection} (hc : c ∈ s'.connections)
    (hclosed : c.isClosed = true) :
    (∃ d ∈ s.connections, d.isClosed = true ∧ d.client = c.client) ∨ c.client ∈ s'.departures := by
  cases h with
  | idle | unregister | advance | tamper | takeRequest | takeDeparture | finish | revoke =>
      exact .inl ⟨c, hc, hclosed, rfl⟩
  | connect client m =>
      rcases List.mem_append.mp hc with hc | hc
      · exact .inl ⟨c, hc, hclosed, rfl⟩
      · rw [List.mem_singleton.mp hc, Connection.isClosed, phase_newConnection] at hclosed
        cases hclosed
  | input bytes hd hclient hphase =>
      rcases exists_of_mem_modify hc with hc | ⟨d, hd, rfl⟩
      · exact .inl ⟨c, hc, hclosed, rfl⟩
      · rw [Connection.isClosed, hphase] at hclosed
        exact .inl ⟨d, List.mem_of_getElem? hd, hclosed, (hclient d).symm⟩
  | hold | permit | enqueue =>
      rcases exists_of_mem_modify hc with hc | ⟨d, hd, rfl⟩
      · exact .inl ⟨c, hc, hclosed, rfl⟩
      · cases hclosed
  | leave hd =>
      rcases exists_of_mem_modify hc with hc | ⟨d', hd', rfl⟩
      · exact .inl ⟨c, hc, hclosed, rfl⟩
      · cases hd.symm.trans hd'
        exact .inr (by simp)
  | reply htask =>
      rcases exists_of_mem_modify hc with hc | ⟨d, hd, rfl⟩
      · exact .inl ⟨c, hc, hclosed, rfl⟩
      · obtain ⟨hclient, -, hphase⟩ := deliver_same _ d
        rw [Connection.isClosed, hphase] at hclosed
        exact .inl ⟨d, List.mem_of_getElem? hd, hclosed, hclient.symm⟩

/-- Who is registered, given what was done. -/
structure Membership (ds : List Deed) (s : Session (Recorded σ)) : Prop where
  requests : ∀ r ∈ s.requests, s.Knows r.client
  tasks : ∀ t ∈ s.tasks, ∀ r ∈ t.request, s.Knows r.client
  replied : ∀ r a, .reply r a ∈ ds → s.Knows r.client
  departures : ∀ c ∈ s.departures, s.Knows c
  unused : ∀ id, s.clients.length ≤ id → s.registry.members[id]? = none
  enrolled : ∀ c, s.Knows c → .depart c ∉ ds → s.registry.members[c.id]? = some c
  left : ∀ c ∈ s.connections, c.isClosed = true → c.client ∈ s.departures ∨ .depart c.client ∈ ds

theorem Membership.unused_change (hs : Membership ds s) (h : Change s e new s') {id : Nat}
    (hid : s'.clients.length ≤ id) : s'.registry.members[id]? = none := by
  have hlength := h.clients_prefix.length_le
  have hbefore := hs.unused id (by omega)
  cases h with
  | @connect _ client m hnew =>
      have hclients : s.clients.length = client.id := by rw [hnew, clients, List.length_map]
      have hne : client.id ≠ id := by
        simp [clients] at hid hclients
        omega
      rw [Registry.getElem?_enroll, if_neg hne]
      exact hbefore
  | takeDeparture hdepartures =>
      rw [Registry.getElem?_remove, hbefore, ite_self]
  | idle | input | unregister | advance | tamper | takeRequest | hold | permit | enqueue | leave
  | reply | finish | revoke => exact hbefore

theorem Membership.enrolled_change (hs : Membership ds s) (h : Change s e new s') {c : Client}
    (hc : s'.Knows c) (hds : .depart c ∉ ds ++ new) : s'.registry.members[c.id]? = some c := by
  obtain ⟨hold, hnew⟩ : .depart c ∉ ds ∧ .depart c ∉ new := by simpa using hds
  cases h with
  | @connect _ client m hid =>
      have hclients : s.clients.length = client.id := by rw [hid, clients, List.length_map]
      rw [Registry.getElem?_enroll_of_none (hs.unused _ (Nat.le_of_eq hclients))]
      have hc : (s.clients ++ [client])[c.id]? = some c := by
        simpa [Knows, clients] using hc
      rw [List.getElem?_append] at hc
      split at hc
      · rename_i hlt
        rw [if_neg (by omega)]
        exact hs.enrolled c hc hold
      · obtain rfl := List.mem_singleton.mp (List.mem_of_getElem? hc)
        simp
  | @takeDeparture _ client rest hdepartures =>
      have hclient : s.Knows client := hs.departures client (by simp [hdepartures])
      have hne : client.id ≠ c.id := by
        intro hsame
        rw [Knows, hsame] at hclient
        cases hclient.symm.trans hc
        simp at hnew
      rw [Registry.getElem?_remove, if_neg hne]
      exact hs.enrolled c hc hold
  | input bytes hd hclient => exact hs.enrolled c (hc.of_modify rfl hclient) hold
  | hold | permit | enqueue | leave =>
      refine hs.enrolled c (hc.of_modify rfl ?_) hold
      exact fun _ ↦ rfl
  | reply => exact hs.enrolled c (hc.of_modify rfl (client_deliver _)) hold
  | idle | unregister | advance | tamper | takeRequest | finish | revoke =>
      exact hs.enrolled c hc hold

theorem Membership.change (hs : Membership ds s) (hnumbered : s.Numbered) (h : Change s e new s') :
    Membership (ds ++ new) s' where
  requests r hr := by
    rcases h.mem_requests hr hnumbered with hr | hknown
    · exact (hs.requests r hr).change h
    · exact hknown.change h
  tasks t ht r hr := by
    rcases h.mem_tasks ht hr with hr | ⟨t, ht, hr⟩
    · exact (hs.requests r hr).change h
    · exact (hs.tasks t ht r hr).change h
  replied r a hr := by
    rcases List.mem_append.mp hr with hr | hr
    · exact (hs.replied r a hr).change h
    · obtain ⟨-, htask, -⟩ := h.of_reply hr
      exact (hs.tasks _ htask r List.mem_cons_self).change h
  departures c hc := by
    rcases h.mem_departures hc hnumbered with hc | hknown
    · exact (hs.departures c hc).change h
    · exact hknown.change h
  unused _ := hs.unused_change h
  enrolled _ := hs.enrolled_change h
  left c hc hclosed := by
    rw [List.mem_append]
    rcases h.mem_closed hc hclosed with ⟨d, hd, hdclosed, hclient⟩ | hdeparted
    · rw [← hclient]
      rcases hs.left d hd hdclosed with hdeparted | hdone
      · exact (h.departures_kept hdeparted).imp_right .inr
      · exact .inr (.inl hdone)
    · exact .inl hdeparted

omit [Store σ] in
theorem Membership.start (o : SessionOptions) (data : TimedStore (Recorded σ)) :
    Membership [] { options := o, data, permits := o.maxInflight } where
  requests := by simp
  tasks := by simp
  replied := by simp
  departures := by simp
  unused := by simp
  enrolled c hc := by simp [Knows, clients] at hc
  left := by simp

end Session

end KvServer
