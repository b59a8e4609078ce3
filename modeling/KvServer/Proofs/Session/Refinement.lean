import KvServer.Proofs.Session.Errands
import KvServer.Store.Memory

/-!
# A session does what its script asks of a dispatcher

`Follows` relates the peers that a script tells of to a quiet session: who is registered, who still
listens, and what of a frame has come in.  Every fair step keeps it and carries out the errands of
the step (`Follows.step`), so a session on a script serves its clients as a single dispatcher does
on the plan of the script (`received_eq_replies_to_plan`).
-/

namespace KvServer

open Text Script

namespace Peer

/-- What the registry holds of a peer. -/
def member (i : Nat) (p : Peer) : Option Client :=
  if p.registered then some ⟨i, p.identity⟩ else none

/-- A connection is what a script tells of its peer. -/
structure Tells (i : Nat) (p : Peer) (c : Connection) : Prop where
  client : c.client = ⟨i, p.identity⟩
  closed : p.ended = true → c.isClosed = true
  listens : p.ended = false → c.Listens
  unread : p.ended = false → c.inbox.unread = p.unfinished
  unfinished : p.ended = false → Unfinished p.unfinished

variable {i : Nat} {p : Peer} {c : Connection}

/-- A peer that may send is heard, and one that may not is not. -/
theorem Tells.canSend (h : p.Tells i c) : Session.Connection.canSend c = !p.ended := by
  cases hended : p.ended with
  | true => simp [Session.Connection.canSend, h.closed hended]
  | false =>
      have hlistens := h.listens hended
      simp [Session.Connection.canSend, hlistens.present, hlistens.inputEnd,
        Connection.isClosed, hlistens.phase]

theorem Tells.rests (h : p.Tells i c) : c.Rests := by
  cases hended : p.ended with
  | true => exact Or.inl (h.closed hended)
  | false =>
      have hlistens := h.listens hended
      have hunfinished : Unfinished c.inbox.unread := by
        rw [h.unread hended]
        exact h.unfinished hended
      exact Or.inr ⟨hlistens.phase, Inbox.next_of_open hunfinished hlistens.inputEnd⟩

end Peer

namespace Session

variable {σ : Type} [Store σ] {o : SessionOptions} {ps : List Peer} {s s' : Session (Recorded σ)}
  {i : Nat} {p : Peer} {c : Connection}

/-- A quiet session is what a script tells of its peers. -/
structure Follows (o : SessionOptions) (ps : List Peer) (s : Session (Recorded σ)) : Prop
    extends Quiet s where
  options : s.options = o
  room : 0 < o.queueCapacity
  free : 0 < o.maxInflight
  members : ∀ i : Nat, s.registry.members[i]? = ps[i]?.bind (Peer.member i)
  length : s.connections.length = ps.length
  tells : ∀ (i : Nat) (p : Peer) (c : Connection), ps[i]? = some p →
    s.connections[i]? = some c → p.Tells i c

section

omit [Store σ]

theorem Follows.connection (h : Follows o ps s) (hp : ps[i]? = some p) :
    ∃ c, s.connections[i]? = some c ∧ p.Tells i c := by
  have hlt : i < s.connections.length := by
    rw [h.length]
    exact (List.getElem?_eq_some_iff.mp hp).1
  have hc := List.getElem?_eq_getElem hlt
  exact ⟨_, hc, h.tells i p _ hp hc⟩

/-- Connections that are what a script tells of are numbered, and their readers rest. -/
theorem numbered_and_rests (hlength : s.connections.length = ps.length)
    (htells : ∀ (i : Nat) (p : Peer) (c : Connection), ps[i]? = some p →
      s.connections[i]? = some c → p.Tells i c) :
    s.Numbered ∧ ∀ c ∈ s.connections, c.Rests := by
  have hpeer : ∀ (i : Nat) (c : Connection), s.connections[i]? = some c →
      ∃ p : Peer, p.Tells i c := by
    intro i c hc
    have hlt : i < ps.length := by
      rw [← hlength]
      exact (List.getElem?_eq_some_iff.mp hc).1
    exact ⟨_, htells i _ c (List.getElem?_eq_getElem hlt) hc⟩
  constructor
  · intro i c hc
    obtain ⟨p, hp⟩ := hpeer i c hc
    rw [hp.client]
  · intro c hc
    obtain ⟨i, hi⟩ := List.mem_iff_getElem?.mp hc
    obtain ⟨p, hp⟩ := hpeer i c hi
    exact hp.rests

theorem Follows.connection_none (h : Follows o ps s) (hp : ps[i]? = none) :
    s.connections[i]? = none := by
  rw [List.getElem?_eq_none_iff, h.length]
  exact List.getElem?_eq_none_iff.mp hp

theorem Follows.setData (h : Follows o ps s) {data : TimedStore (Recorded σ)}
    (hsettled : data.Settled) (hstop : data.channel.stopped = false) :
    Follows o ps { s with data } :=
  { h with
    toQuiet := { h.toQuiet with
      goesOn := hstop
      settled := hsettled } }

/-- The registry and the connections change as the script tells of the peers. -/
theorem Follows.retell (h : Follows o ps s) {ps' : List Peer} {registry : Registry}
    {connections : List Connection}
    (hmembers : ∀ i : Nat, registry.members[i]? = ps'[i]?.bind (Peer.member i))
    (hlength : connections.length = ps'.length)
    (htells : ∀ (i : Nat) (p : Peer) (c : Connection), ps'[i]? = some p →
      connections[i]? = some c → p.Tells i c) :
    Follows o ps' { s with registry, connections } := by
  obtain ⟨hnumbered, hrests⟩ :=
    numbered_and_rests (s := { s with registry, connections }) hlength htells
  exact
    { h with
      toQuiet := { h.toQuiet with
        numbered := hnumbered
        rests := hrests }
      members := hmembers
      length := hlength
      tells := htells }

/-- One connection changes as the script tells of its peer. -/
theorem Follows.update (h : Follows o ps s) (hp : ps[i]? = some p) {p' : Peer}
    {f : Connection → Connection} (htells : ∀ c, p.Tells i c → p'.Tells i (f c))
    (hmember : p'.member i = p.member i) : Follows o (ps.set i p') (s.update i f) := by
  have hlt := (List.getElem?_eq_some_iff.mp hp).1
  refine h.retell ?_ (by simp [h.length]) ?_
  · intro j
    refine (h.members j).trans ?_
    by_cases hj : i = j
    · subst hj
      rw [List.getElem?_set_self hlt, hp]
      exact hmember.symm
    · rw [List.getElem?_set_ne hj]
  · intro j q c hq hc
    rw [List.getElem?_modify] at hc
    by_cases hj : i = j
    · subst hj
      rw [List.getElem?_set_self hlt] at hq
      cases hq
      obtain ⟨d, hd, htells'⟩ := h.connection hp
      rw [hd] at hc
      simp only [if_true, Option.map_eq_map, Option.map_some, Option.some.injEq] at hc
      subst hc
      exact htells d htells'
    · rw [List.getElem?_set_ne hj] at hq
      simp only [hj, if_false, Option.map_eq_map, Option.map_id_fun', id_eq] at hc
      exact h.tells j q c hq hc

end

/-! ## Departures -/

section

omit [Store σ]

theorem repliesOf_congr (h : s'.connections = s.connections) (i : Nat) :
    s'.repliesOf i = s.repliesOf i := by
  rw [repliesOf, h]
  rfl

theorem repliesOf_update_self {f : Connection → Connection} (hc : s.connections[i]? = some c) :
    (s.update i f).repliesOf i = (f c).replies.reverse := by
  simp [repliesOf, Session.update, hc]

theorem repliesOf_update_ne {f : Connection → Connection} {j : Nat} (hj : i ≠ j) :
    (s.update i f).repliesOf j = s.repliesOf j := by
  simp [repliesOf, Session.update, hj]

theorem repliesOf_update {f : Connection → Connection} (hf : ∀ c, (f c).replies = c.replies)
    (j : Nat) : (s.update i f).repliesOf j = s.repliesOf j := by
  by_cases hj : i = j
  · subst hj
    cases hc : s.connections[i]? with
    | none => simp [repliesOf, Session.update, hc]
    | some c =>
        rw [repliesOf_update_self hc, hf, repliesOf, hc]
        rfl
  · exact repliesOf_update_ne hj

theorem repliesOf_close (i : Nat) (e : Ending) (j : Nat) :
    (s.close i e).repliesOf j = s.repliesOf j :=
  repliesOf_update (f := fun c ↦ { c with phase := .left e }) (fun _ ↦ rfl) j

end

/-- The departure of a client is dealt with as its peer asks for. -/
theorem Follows.part (h : Follows o ps s) (hp : ps[i]? = some p) :
    Follows o (ps.set i p.unregister) (s.part ⟨i, p.identity⟩) ∧
      CarriedOut (p.departure o) s (s.part ⟨i, p.identity⟩) := by
  have hlt := (List.getElem?_eq_some_iff.mp hp).1
  have hquiet := h.toQuiet.part ⟨i, p.identity⟩
  constructor
  · refine (h.setData hquiet.settled hquiet.goesOn).retell ?_ (by simp [h.length]) ?_
    · intro j
      have hremove : (s.registry.remove i).2.members[j]? =
          if i = j then none else s.registry.members[j]? := Registry.getElem?_remove j
      rw [hremove, h.members]
      by_cases hj : i = j
      · subst hj
        rw [if_pos rfl, List.getElem?_set_self hlt]
        rfl
      · rw [if_neg hj, List.getElem?_set_ne hj]
    · intro j q c hq hc
      by_cases hj : i = j
      · subst hj
        rw [List.getElem?_set_self hlt] at hq
        cases hq
        have htells := h.tells i p c hp hc
        exact ⟨htells.client, htells.closed, htells.listens, htells.unread, htells.unfinished⟩
      · rw [List.getElem?_set_ne hj] at hq
        exact h.tells j q c hq hc
  · have hregistered : (s.registry.remove i).1.isSome = p.registered := by
      rw [Registry.remove_fst, h.members, hp, Option.bind_some, Peer.member]
      cases p.registered <;> rfl
    unfold Peer.departure
    split
    · rename_i hcond
      refine CarriedOut.single _ ?_ (repliesOf_congr rfl)
      simp [Session.part, hregistered, h.options, hcond, Dispatch.step]
    · rename_i hcond
      refine CarriedOut.nil ?_ (repliesOf_congr rfl)
      simp [Session.part, hregistered, h.options, hcond]

omit [Store σ] in
theorem Follows.close (h : Follows o ps s) (hp : ps[i]? = some p) {g : Connection → Connection}
    (hclient : ∀ c, (g c).client = c.client) (e : Ending) :
    Follows o (ps.set i { p with ended := true }) ((s.update i g).close i e) := by
  have hclose : (s.update i g).close i e = s.update i fun c ↦ { g c with phase := .left e } := by
    simp [Session.close, Session.update, List.modify_modify_eq, Function.comp_def]
  rw [hclose]
  refine h.update hp ?_ rfl
  intro c htells
  exact
    { client := (hclient c).trans htells.client
      closed := fun _ ↦ rfl
      listens := by simp
      unread := by simp
      unfinished := by simp }

/-- A peer leaves whose input has come to an end. -/
theorem Follows.leave (h : Follows o ps s) (hp : ps[i]? = some p) {g : Connection → Connection}
    (hclient : ∀ c, (g c).client = c.client) (hreplies : ∀ c, (g c).replies = c.replies)
    (hstop : ∀ c, p.Tells i c → (g c).phase = .reading ∧ ∃ e, (g c).inbox.next = .stop e) :
    Follows o (ps.set i p.leave) (s.update i g).settle ∧
      CarriedOut (p.departure o) s (s.update i g).settle := by
  obtain ⟨c, hc, htells⟩ := h.connection hp
  obtain ⟨hphase, e, hnext⟩ := hstop c htells
  have hlt := (List.getElem?_eq_some_iff.mp hp).1
  have hid : (g c).client = ⟨i, p.identity⟩ := (hclient c).trans htells.client
  have hclosed := h.close hp hclient e
  have hleads : Leads (s.update i g) (((s.update i g).close i e).part ⟨i, p.identity⟩) := by
    have hgc : (s.update i g).connections[i]? = some (g c) := by
      simp [Session.update, hc]
    have hleave := leads_leave (s := s.update i g) (c := g c) (e := e)
    rw [hid] at hleave
    exact hleave hclosed.toQuiet hgc hphase hnext
  obtain ⟨hfollows, hdone⟩ := hclosed.part (List.getElem?_set_self hlt)
  rw [hleads.settle_eq (h.numbered.update hclient)]
  rw [List.set_set] at hfollows
  have hsame : CarriedOut [] s ((s.update i g).close i e) := by
    refine CarriedOut.nil rfl fun j ↦ ?_
    exact (repliesOf_close i e j).trans (repliesOf_update hreplies j)
  exact ⟨hfollows, hsame.append hdone rfl⟩

/-! ## Frames -/

theorem repliesTo_frames_of_ne {j : Nat} (hj : i ≠ j) (p : Peer) (bytes : Bytes)
    (answers : List Dispatch.Answer) : repliesTo j (p.frames i bytes) answers = [] := by
  refine repliesTo_eq_nil ?_ answers
  intro e he
  obtain ⟨l, -, rfl⟩ := List.mem_map.mp he
  simpa using hj

/-- The connection of a peer that has sent some bytes and got the replies `rs`. -/
def answered (p : Peer) (bytes : Bytes) (rs : List Reply) (c : Connection) : Connection :=
  { c with
    inbox := { c.inbox with unread := (p.send bytes).unfinished }
    replies := rs.reverse ++ c.replies }

/-- What a peer sends comes to errands for its frames. -/
theorem Follows.settle_receive (h : Follows o ps s) (hp : ps[i]? = some p)
    (hopen : p.ended = false) {bytes : Bytes} (hfits : Fits (p.unfinished ++ bytes)) :
    let es := p.frames i bytes
    let d := Dispatch.runSteps s.options.secret (es.map Prod.snd) s.data
    (s.update i fun c ↦ { c with inbox := c.inbox.receive bytes }).settle =
        ({ s with data := d.2 } : Session (Recorded σ)).update i
          (answered p bytes (repliesTo i es d.1)) ∧
      d.2.Settled ∧ d.2.channel = s.data.channel := by
  intro es d
  obtain ⟨c, hc, htells⟩ := h.connection hp
  have hid : c.client.id = i := by rw [htells.client]
  have hidentity : c.client.identity = p.identity := by rw [htells.client]
  have hunread := htells.unread hopen
  have hroom : 0 < s.options.queueCapacity := by
    rw [h.options]
    exact h.room
  have hfree : 0 < s.options.maxInflight := by
    rw [h.options]
    exact h.free
  have hsettle := h.toQuiet.settle_receive (by rwa [hid]) (htells.listens hopen) (by rwa [hunread])
    hroom hfree
  have hserve : Dispatch.serve s.options.secret p.identity (lines (p.unfinished ++ bytes)).1
      (c.replies, s.data) = ((repliesTo i es d.1).reverse ++ c.replies, d.2) :=
    Dispatch.serve_eq_runSteps i _ c.replies h.settled h.goesOn
  have hdata := Dispatch.settled_serve s.options.secret p.identity
    (lines (p.unfinished ++ bytes)).1 c.replies h.settled h.goesOn
  rw [hserve] at hdata
  refine ⟨?_, hdata⟩
  rw [hid, hunread, hidentity, hserve] at hsettle
  rw [hsettle]
  simp [served, Session.update, modify_of_getElem? hc, hid, answered, Peer.send]

theorem Follows.send (h : Follows o ps s) (hp : ps[i]? = some p) (hopen : p.ended = false)
    {bytes : Bytes} (hfits : Fits (p.unfinished ++ bytes)) :
    Follows o (ps.set i (p.send bytes))
        (s.update i fun c ↦ { c with inbox := c.inbox.receive bytes }).settle ∧
      CarriedOut (p.frames i bytes) s
        (s.update i fun c ↦ { c with inbox := c.inbox.receive bytes }).settle := by
  obtain ⟨c, hc, -⟩ := h.connection hp
  obtain ⟨hserved, hsettled, hchannel⟩ := h.settle_receive hp hopen hfits
  rw [hserved]
  constructor
  · refine (h.setData hsettled (by rw [hchannel]; exact h.goesOn)).update hp ?_ rfl
    intro c' htells'
    exact
      { client := htells'.client
        closed := htells'.closed
        listens := fun hopen ↦
          ⟨(htells'.listens hopen).phase, (htells'.listens hopen).writable,
            (htells'.listens hopen).present, (htells'.listens hopen).inputEnd⟩
        unread := fun _ ↦ rfl
        unfinished := fun _ ↦ hfits.unfinished_rest }
  · refine ⟨rfl, fun j ↦ ?_⟩
    by_cases hj : i = j
    · subst hj
      refine (repliesOf_update_self hc).trans ?_
      simp [repliesOf, hc, answered]
    · rw [repliesOf_update_ne hj, repliesTo_frames_of_ne hj, List.append_nil]
      exact repliesOf_congr rfl j

/-! ## Connections -/

omit [Store σ] in
theorem connect_snd (hrunning : s.running = true) (identity : String) (m : Medium) :
    (s.connect identity m).2 =
      { s with
        registry := (s.registry.enroll ⟨s.connections.length, identity⟩).2
        connections := s.connections ++ [newConnection ⟨s.connections.length, identity⟩ m] } := by
  simp [connect, hrunning]

omit [Store σ] in
theorem repliesOf_connect (hrunning : s.running = true) (identity : String) (j : Nat) :
    (s.connect identity .sound).2.repliesOf j = s.repliesOf j := by
  rw [connect_snd hrunning, repliesOf, repliesOf]
  rcases Nat.lt_trichotomy j s.connections.length with hlt | rfl | hgt
  · rw [List.getElem?_append_left hlt]
  · rw [List.getElem?_concat_length, List.getElem?_eq_none (Nat.le_refl _)]
    rfl
  · rw [List.getElem?_eq_none (by simp; omega), List.getElem?_eq_none (by omega)]

/-- A connection on which some bytes come in before reading fails. -/
def failing (bytes : Bytes) (message : String) (c : Connection) : Connection :=
  { c with inbox := ⟨bytes, some (.failed message)⟩ }

omit [Store σ] in
theorem connect_readFails (hrunning : s.running = true) {identity : String} {bytes : Bytes}
    {message : String} :
    (s.connect identity (.readFails bytes message)).2 =
      (s.connect identity .sound).2.update s.connections.length (failing bytes message) := by
  rw [connect_snd hrunning, connect_snd hrunning, Session.update]
  dsimp only
  rw [modify_of_getElem? List.getElem?_concat_length, List.set_append_right _ _ (Nat.le_refl _),
    Nat.sub_self]
  rfl

omit [Store σ] in
theorem Follows.connect (h : Follows o ps s) (identity : String) :
    Follows o (ps ++ [.join identity]) (s.connect identity .sound).2 := by
  have hnone : s.registry.members[s.connections.length]? = none := by
    rw [h.members, h.length, List.getElem?_eq_none (Nat.le_refl _)]
    rfl
  rw [connect_snd h.running]
  refine h.retell ?_ (by simp [h.length]) ?_
  · intro i
    refine (Registry.getElem?_enroll_of_none hnone i).trans ?_
    rw [h.members, h.length]
    rcases Nat.lt_trichotomy i ps.length with hlt | rfl | hgt
    · rw [List.getElem?_append_left hlt, if_neg (Nat.ne_of_gt hlt)]
    · rw [List.getElem?_concat_length, if_pos rfl]
      rfl
    · rw [List.getElem?_eq_none (by omega), List.getElem?_eq_none (by simp; omega),
        if_neg (Nat.ne_of_lt hgt)]
  · intro i p c hp hc
    rcases Nat.lt_trichotomy i ps.length with hlt | rfl | hgt
    · rw [List.getElem?_append_left hlt] at hp
      rw [List.getElem?_append_left (by rwa [h.length])] at hc
      exact h.tells i p c hp hc
    · rw [← h.length, List.getElem?_concat_length] at hc
      rw [List.getElem?_concat_length] at hp
      obtain rfl := Option.some.inj hp
      obtain rfl := Option.some.inj hc
      exact
        { client := by rw [h.length]; rfl
          closed := by simp [Peer.join]
          listens := fun _ ↦ ⟨rfl, rfl, rfl, rfl⟩
          unread := fun _ ↦ rfl
          unfinished := fun _ ↦ unfinished_nil }
    · rw [List.getElem?_eq_none (by simp; omega)] at hp
      cases hp

/-! ## Steps -/

theorem Follows.ofData (h : Follows o ps s) (st : Dispatch.Step) {data : TimedStore (Recorded σ)}
    (hsettled : data.Settled) (hstop : data.channel.stopped = false)
    (hdata : data = (Dispatch.step o.secret st s.data).2) :
    Follows o ps ({ s with data } : Session (Recorded σ)).settle ∧
      CarriedOut [(none, st)] s ({ s with data } : Session (Recorded σ)).settle := by
  have hnext := h.setData hsettled hstop
  rw [settle_of_isIdle hnext.isIdle]
  refine ⟨hnext, CarriedOut.single st ?_ (repliesOf_congr rfl)⟩
  rw [h.options]
  exact hdata

theorem sender?_eq_some (h : sender? i ps = some p) : ps[i]? = some p ∧ p.ended = false := by
  obtain ⟨hp, hopen⟩ := Option.filter_eq_some_iff.mp h
  exact ⟨hp, by simpa using hopen⟩

omit [Store σ] in
/-- What comes from a peer that may not send changes nothing. -/
theorem Follows.ignore (h : Follows o ps s) (hp : sender? i ps = none) {f : Connection → Connection}
    (hclient : ∀ c, (f c).client = c.client) (hphase : ∀ c, (f c).phase = c.phase) :
    Follows o ps (s.update i f) := by
  cases hpeer : ps[i]? with
  | none =>
      have hlen : s.connections.length ≤ i := by
        rw [h.length]
        exact List.getElem?_eq_none_iff.mp hpeer
      rwa [Session.update, List.modify_eq_self hlen]
  | some p =>
      have hended : p.ended = true := by
        cases hended : p.ended with
        | true => rfl
        | false => simp [sender?, hpeer, hended] at hp
      have hnext : Follows o (ps.set i p) (s.update i f) := by
        refine h.update hpeer ?_ rfl
        intro c htells
        exact
          { client := (hclient c).trans htells.client
            closed := by
              intro _
              have hclosed := htells.closed hended
              rwa [Connection.isClosed, hphase]
            listens := by simp [hended]
            unread := by simp [hended]
            unfinished := by simp [hended] }
      obtain ⟨hlt, rfl⟩ := List.getElem?_eq_some_iff.mp hpeer
      rwa [List.set_getElem_self] at hnext

theorem Follows.still (h : Follows o ps s') (hdata : s'.data = s.data)
    (hreplies : ∀ j, s'.repliesOf j = s.repliesOf j) :
    Follows o ps s'.settle ∧ CarriedOut [] s s'.settle := by
  rw [settle_of_isIdle h.isIdle]
  exact ⟨h, CarriedOut.nil hdata hreplies⟩

theorem Follows.stepConnect (h : Follows o ps s) {identity : String} {m : Medium}
    (hfair : Fair (.connect identity m) ps) :
    Follows o (Script.step o (.connect identity m) ps).2 (s.step (.connect identity m)).2 ∧
      CarriedOut (Script.step o (.connect identity m) ps).1 s (s.step (.connect identity m)).2 := by
  have hconnect := h.connect identity
  have hdata : (s.connect identity .sound).2.data = s.data := by rw [connect_snd h.running]
  have hreplies := repliesOf_connect h.running identity
  cases m with
  | sound => exact hconnect.still hdata hreplies
  | writeFails => exact hfair.elim
  | readFails bytes message =>
      have hp : (ps ++ [Peer.join identity])[ps.length]? = some (.join identity) :=
        List.getElem?_concat_length
      have hend : ∃ e, Inbox.next ⟨bytes, some (.failed message)⟩ = .stop e :=
        Inbox.next_of_ended hfair rfl
      obtain ⟨hfollows, hdone⟩ := hconnect.leave hp (g := failing bytes message) (fun _ ↦ rfl)
        (fun _ ↦ rfl) fun c htells ↦ ⟨(htells.listens rfl).phase, hend⟩
      rw [← h.length, ← connect_readFails h.running] at hfollows hdone
      rw [h.length, List.set_append_right _ _ (Nat.le_refl _), Nat.sub_self] at hfollows
      have hstart : CarriedOut [] s (s.connect identity .sound).2 := .nil hdata hreplies
      refine ⟨hfollows, hstart.append hdone ?_⟩
      rw [connect_snd h.running]

omit [Store σ] in
theorem Follows.any_canSend (h : Follows o ps s) (i : Nat) :
    s.connections[i]?.any Connection.canSend = (sender? i ps).isSome := by
  cases hp : ps[i]? with
  | none =>
      simp [sender?, hp, h.connection_none hp]
  | some p =>
      obtain ⟨c, hc, htells⟩ := h.connection hp
      rw [hc, Option.any_some, htells.canSend]
      cases hended : p.ended <;> simp [sender?, hp, hended]

theorem Follows.stepSend (h : Follows o ps s) {bytes : Bytes} (hfair : Fair (.send i bytes) ps) :
    Follows o (Script.step o (.send i bytes) ps).2 (s.step (.send i bytes)).2 ∧
      CarriedOut (Script.step o (.send i bytes) ps).1 s (s.step (.send i bytes)).2 := by
  rw [Session.step, act, Script.step, h.any_canSend]
  cases hsender : sender? i ps with
  | some p =>
      obtain ⟨hp, hopen⟩ := sender?_eq_some hsender
      exact h.send hp hopen (hfair p hsender)
  | none => exact h.still rfl fun _ ↦ rfl

theorem Follows.stepEnd (h : Follows o ps s) {g : Connection → Connection}
    (hclient : ∀ c, (g c).client = c.client) (hreplies : ∀ c, (g c).replies = c.replies)
    (hphase : ∀ c, (g c).phase = c.phase)
    (hstop : ∀ p c, sender? i ps = some p → p.Tells i c → ∃ e, (g c).inbox.next = .stop e) :
    Follows o (Script.step o (.finish i) ps).2 (s.update i g).settle ∧
      CarriedOut (Script.step o (.finish i) ps).1 s (s.update i g).settle := by
  rw [Script.step]
  cases hsender : sender? i ps with
  | some p =>
      obtain ⟨hp, hopen⟩ := sender?_eq_some hsender
      refine h.leave hp hclient hreplies fun c htells ↦ ?_
      exact ⟨(hphase c).trans (htells.listens hopen).phase, hstop p c hsender htells⟩
  | none => exact (h.ignore hsender hclient hphase).still rfl (repliesOf_update hreplies)

theorem Follows.stepFinish (h : Follows o ps s) (i : Nat) :
    Follows o (Script.step o (.finish i) ps).2 (s.step (.finish i)).2 ∧
      CarriedOut (Script.step o (.finish i) ps).1 s (s.step (.finish i)).2 := by
  let g : Connection → Connection := fun c ↦
    { c with inbox := { c.inbox with inputEnd := c.inbox.inputEnd.or (some .closed) } }
  refine h.stepEnd (g := g) (fun _ ↦ rfl) (fun _ ↦ rfl) (fun _ ↦ rfl) fun p c hsender htells ↦ ?_
  obtain ⟨-, hopen⟩ := sender?_eq_some hsender
  have hunfinished : Unfinished (g c).inbox.unread := by
    change Unfinished c.inbox.unread
    rw [htells.unread hopen]
    exact htells.unfinished hopen
  refine Inbox.next_of_ended (e := .closed) hunfinished ?_
  simp [g, (htells.listens hopen).inputEnd]

theorem Follows.stepVanish (h : Follows o ps s) {bytes : Bytes}
    (hfair : Fair (.vanish i bytes) ps) :
    Follows o (Script.step o (.vanish i bytes) ps).2 (s.step (.vanish i bytes)).2 ∧
      CarriedOut (Script.step o (.vanish i bytes) ps).1 s (s.step (.vanish i bytes)).2 := by
  let g : Connection → Connection := fun c ↦
    let inbox := if Connection.canSend c then c.inbox.receive bytes else c.inbox
    { c with
      inbox := { inbox with inputEnd := inbox.inputEnd.or (some .closed) }
      present := false }
  refine h.stepEnd (g := g) (fun _ ↦ rfl) (fun _ ↦ rfl) (fun _ ↦ rfl) fun p c hsender htells ↦ ?_
  obtain ⟨-, hopen⟩ := sender?_eq_some hsender
  have hinbox : (g c).inbox = ⟨p.unfinished ++ bytes, some .closed⟩ := by
    simp [g, htells.canSend, hopen, Inbox.receive, htells.unread hopen,
      (htells.listens hopen).inputEnd]
  rw [hinbox]
  exact Inbox.next_of_ended (hfair p hsender) rfl

theorem Follows.stepUnregister (h : Follows o ps s) (i : Nat) :
    Follows o (Script.step o (.unregister i) ps).2 (s.step (.unregister i)).2 ∧
      CarriedOut (Script.step o (.unregister i) ps).1 s (s.step (.unregister i)).2 := by
  rw [Script.step]
  cases hp : ps[i]? with
  | some p =>
      obtain ⟨c, hc, htells⟩ := h.connection hp
      have hstep : (s.step (.unregister i)).2 =
          ({ s with departures := [c.client] } : Session (Recorded σ)).settle := by
        simp [Session.step, act, reportDeparture, h.running, hc, h.departures]
      rw [hstep, (h.toQuiet.leads_departure c.client).settle_eq h.numbered, htells.client]
      exact h.part hp
  | none =>
      have hstep : (s.step (.unregister i)).2 = s.settle := by
        simp [Session.step, act, reportDeparture, h.running, h.connection_none hp]
      rw [hstep]
      exact h.still rfl fun _ ↦ rfl

theorem Follows.stepSignal (h : Follows o ps s) :
    Follows o ps (s.step (.signal .resume)).2 ∧
      CarriedOut [(none, .signal .resume)] s (s.step (.signal .resume)).2 := by
  have hcoherent : TimedStore.Coherent { s.data with channel := s.data.channel.after .resume } :=
    h.settled.coherent.setChannel _
  refine h.ofData (.signal .resume) hcoherent.settled_settle ?_ rfl
  have hstop : s.data.channel.stopped = false := h.goesOn
  have hresume : (s.data.channel.after .resume).stopped = false := by
    revert hstop
    unfold Channel.stopped Channel.after
    cases s.data.channel.value <;> cases s.data.channel.attached <;> simp
  exact (congrArg Channel.stopped TimedStore.settle_channel).trans hresume

theorem Follows.stepAdvance (h : Follows o ps s) (ms : Nat) :
    Follows o ps (s.step (.advance ms)).2 ∧
      CarriedOut [(none, .advance ms)] s (s.step (.advance ms)).2 := by
  have hlater : TimedStore.Coherent { s.data with now := s.data.now + ms } :=
    h.settled.coherent.setNow _
  refine h.ofData (.advance ms) hlater.settled_settle ?_ rfl
  exact (congrArg Channel.stopped TimedStore.settle_channel).trans h.goesOn

/-- A fair step carries out what it asks for. -/
theorem Follows.step (h : Follows o ps s) {st : Session.Step} (hfair : Fair st ps) :
    Follows o (Script.step o st ps).2 (s.step st).2 ∧
      CarriedOut (Script.step o st ps).1 s (s.step st).2 := by
  cases st with
  | connect identity m => exact h.stepConnect hfair
  | send i bytes => exact h.stepSend hfair
  | finish i => exact h.stepFinish i
  | vanish i bytes => exact h.stepVanish hfair
  | unregister i => exact h.stepUnregister i
  | advance ms => exact h.stepAdvance ms
  | wait => exact h.still rfl fun _ ↦ rfl
  | signal sig =>
      obtain rfl : sig = .resume := hfair
      exact h.stepSignal
  | fault kind error? => exact h.ofData (.fault kind error?) (h.settled.setStore _) h.goesOn rfl
  | direct c => exact h.ofData (.direct c) (h.settled.setStore _) h.goesOn rfl

/-! ## Runs -/

theorem Follows.runSteps (h : Follows o ps s) {sts : List Session.Step}
    (hfair : AllFair o sts ps) :
    (∃ ps', Follows o ps' (Session.runSteps sts s).2) ∧
      CarriedOut (plan o sts ps) s (Session.runSteps sts s).2 := by
  induction sts generalizing ps s with
  | nil => exact ⟨⟨ps, h⟩, CarriedOut.nil rfl fun _ ↦ rfl⟩
  | cons st sts ih =>
      obtain ⟨hfirst, hrest⟩ := hfair
      obtain ⟨hnext, hdone⟩ := h.step hfirst
      obtain ⟨hlast, hlater⟩ := ih hnext hrest
      exact ⟨hlast, hdone.append hlater (hnext.options.trans h.options.symm)⟩

omit [Store σ] in
theorem Follows.start {store : Recorded σ} (hstart : Session.start o store = .ok s)
    (hfree : 0 < o.maxInflight) :
    Follows o [] s ∧ s = { options := o, data := { store }, permits := o.maxInflight } := by
  unfold Session.start at hstart
  split at hstart
  · cases hstart
  · rename_i hroom
    split at hstart
    · cases hstart
    · cases hstart
      refine ⟨?_, rfl⟩
      exact
        { numbered := by simp [Numbered]
          running := rfl
          goesOn := rfl
          settled := .empty store 0 {}
          requests := rfl
          departures := rfl
          tasks := rfl
          permits := rfl
          rests := by simp
          options := rfl
          room := by omega
          free := hfree
          members := by simp
          length := rfl
          tells := by simp }

end Session

namespace Script

variable {o : SessionOptions} {e : Errand}

theorem not_mem_departure (hto : e.1.isSome) (p : Peer) : e ∉ p.departure o := by
  intro hmem
  unfold Peer.departure at hmem
  split at hmem
  · rw [List.mem_singleton.mp hmem] at hto
    cases hto
  · cases hmem

/-- Only frames have someone to reply to. -/
theorem isFrame_of_mem_step {st : Session.Step} {ps : List Peer} (he : e ∈ (step o st ps).1)
    (hto : e.1.isSome) : ∃ identity bytes, e.2 = .frame identity bytes := by
  cases st with
  | connect identity m =>
      cases m with
      | readFails => exact absurd he (not_mem_departure hto _)
      | sound | writeFails => cases he
  | send i bytes =>
      rw [step] at he
      split at he
      · obtain ⟨l, -, rfl⟩ := List.mem_map.mp he
        exact ⟨_, l, rfl⟩
      · cases he
  | finish i | vanish i =>
      rw [step] at he
      split at he
      · exact absurd he (not_mem_departure hto _)
      · cases he
  | unregister i =>
      rw [step] at he
      split at he
      · exact absurd he (not_mem_departure hto _)
      · cases he
  | wait => cases he
  | advance | signal | fault | direct =>
      rw [List.mem_singleton.mp he] at hto
      cases hto

theorem isFrame_of_mem_plan {sts : List Session.Step} {ps : List Peer} (he : e ∈ plan o sts ps)
    (hto : e.1.isSome) : ∃ identity bytes, e.2 = .frame identity bytes := by
  induction sts generalizing ps with
  | nil => cases he
  | cons st sts ih =>
      rcases List.mem_append.mp he with he | he
      · exact isFrame_of_mem_step he hto
      · exact ih he

end Script

/-- Take any session with at least one permit and any fair script of connections, bytes, endings,
departures, faults, calls from outside and pauses.  Once the session has settled, its data is what
a single dispatcher makes of the plan of the script, and each peer has received exactly the replies
of this dispatcher to the frames that it has completed, in their order and one for each.  As every
beginning of a fair script is one, the same is true after each step. -/
theorem received_eq_replies_to_plan {σ : Type} [Store σ] (o : SessionOptions) (store : Recorded σ)
    {s₀ : Session (Recorded σ)} (hstart : Session.start o store = .ok s₀)
    (hfree : 0 < o.maxInflight) (script : List Session.Step) (hfair : AllFair o script []) :
    let s := (Session.runSteps script s₀).2
    let es := plan o script []
    let d := Dispatch.runSteps o.secret (es.map Prod.snd) { store }
    s.data = d.2 ∧
      ∀ i, s.connections[i]?.elim [] Connection.received =
          (repliesTo i es d.1).flatMap Reply.bytes ∧
        (repliesTo i es d.1).length = es.countP (·.1 = some i) := by
  intro s es d
  obtain ⟨hstart, hs₀⟩ := Session.Follows.start hstart hfree
  obtain ⟨-, hdone⟩ := hstart.runSteps hfair
  subst hs₀
  refine ⟨hdone.data, fun i ↦ ⟨?_, ?_⟩⟩
  · have hreplies : s.repliesOf i = repliesTo i es d.1 := hdone.replies i
    rw [← hreplies, Session.repliesOf]
    cases s.connections[i]? <;> rfl
  · exact Dispatch.length_repliesTo i (fun e he ↦ isFrame_of_mem_plan he) o.secret { store }

/-- A frame in two halves, with one permit and one place in the queue. -/
theorem received_of_two_halves :
    let o : SessionOptions := { queueCapacity := 1, maxInflight := 1 }
    let store : Recorded Memory := { store := {} }
    let script : List Session.Step :=
      [.connect "a" .sound, .send 0 [0x47, 0x45], .send 0 [0x54, 0x20, 0x78, 0x0A], .finish 0]
    let s := (Session.runSteps script { options := o, data := { store }, permits := 1 }).2
    let es : List Errand := [(some 0, .frame "a" [0x47, 0x45, 0x54, 0x20, 0x78, 0x0A])]
    let d := Dispatch.runSteps o.secret (es.map Prod.snd) { store }
    AllFair o script [] ∧ plan o script [] = es ∧ s.data = d.2 ∧
      ∀ i, s.connections[i]?.elim [] Connection.received =
          (repliesTo i es d.1).flatMap Reply.bytes ∧
        (repliesTo i es d.1).length = es.countP (·.1 = some i) := by
  intro o store script s es d
  have hfair : AllFair o script [] := by decide
  exact ⟨hfair, rfl, received_eq_replies_to_plan o store rfl (by decide) script hfair⟩

end KvServer
