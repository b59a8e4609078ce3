import KvServer.Proofs.Dispatch.Execution
import KvServer.Proofs.Session.Frames
import KvServer.Proofs.Session.Progress
import KvServer.Store.Memory

/-!
# A reader beside the rest of its session

`Reads` is what a reader of a session has done while its input came in, piece by piece, and everyone
else went on.  All that the reader needs of the others is that they leave its connection alone and
that no one shuts the session down (`Meanwhile`).  What it has put into the queue, what it holds and
what is unread are together all that has come in (`Taken`), so in the end it has put the frames of
the whole input into the queue, however this was cut.
-/

namespace KvServer

open Text

namespace Inbox

variable {i : Inbox}

theorem next_of_overlong (h : Overlong i.unread) : i.next = .stop .frameTooLong := by
  rw [next, front_eq_overlong_iff.mpr h]

/-- A reader that stops before the end of its input has met something too long. -/
theorem overlong_of_stop {x : Ending} (hopen : i.inputEnd = none) (h : i.next = .stop x) :
    x = .frameTooLong ∧ Overlong i.unread := by
  rcases next_eq_stop h with hlong | ⟨e, he, -⟩
  · exact hlong
  · rw [hopen] at he
    cases he

end Inbox

namespace Connection

/-- The frame that a reader has taken and not put into the queue yet. -/
def held (c : Connection) : List Bytes :=
  match c.phase with
  | .holding f | .permitted f => [f]
  | .reading | .left _ => []

/-- What a turn of a reader does to its connection while there is no shutdown, and the frame that
it puts into the queue, if any. -/
inductive Turn (c : Connection) : Connection → List Bytes → Prop
  | hold {f : Bytes} {rest : Inbox} (hphase : c.phase = .reading)
      (hnext : c.inbox.next = .frame f rest) :
      Turn c { c with phase := .holding f, inbox := rest } []
  | permit {f : Bytes} (hphase : c.phase = .holding f) : Turn c { c with phase := .permitted f } []
  | enqueue {f : Bytes} (hphase : c.phase = .permitted f) : Turn c { c with phase := .reading } [f]
  | leave {x : Ending} (hphase : c.phase = .reading) (hnext : c.inbox.next = .stop x) :
      Turn c { c with phase := .left x } []

/-- Of all that has come in, a reader has put the frames `taken` into the queue; the rest it holds
or has not read. -/
structure Taken (came : Inbox) (taken : List Bytes) (c : Connection) : Prop where
  inputEnd : c.inbox.inputEnd = came.inputEnd
  bytes : came.unread = (taken ++ c.held).flatten ++ c.inbox.unread
  frames : ∀ f ∈ taken ++ c.held, IsFrame f
  ending : ∀ x, c.phase = .left x → c.inbox.next = .stop x

variable {c c' : Connection} {came : Inbox} {taken new : List Bytes}

theorem Turn.client_eq (h : Turn c c' new) : c'.client = c.client := by
  cases h <;> rfl

theorem Turn.work_lt (h : Turn c c' new) : c'.work < c.work := by
  cases h with
  | hold hphase hnext =>
      have hshorter := Inbox.next_frame_length hnext
      simp only [work, hphase]
      omega
  | permit hphase =>
      simp only [work, hphase]
      omega
  | enqueue hphase =>
      simp only [work, hphase]
      omega
  | leave hphase hnext =>
      simp only [work, hphase]
      omega

theorem Taken.start (hinbox : c.inbox = {}) (hphase : c.phase = .reading) : Taken {} [] c where
  inputEnd := by rw [hinbox]
  bytes := by simp [held, hinbox, hphase]
  frames := by simp [held, hphase]
  ending := by simp [hphase]

theorem Taken.arrive (h : Taken came taken c) (hopen : came.inputEnd = none) (bs : Bytes) :
    Taken (came.receive bs) taken { c with inbox := c.inbox.receive bs } where
  inputEnd := h.inputEnd
  bytes := by
    have hbytes := congrArg (· ++ bs) h.bytes
    simpa [Inbox.receive, held] using hbytes
  frames := h.frames
  ending := by
    intro x hphase
    obtain ⟨rfl, hlong⟩ := Inbox.overlong_of_stop (h.inputEnd.trans hopen) (h.ending x hphase)
    exact Inbox.next_of_overlong (hlong.append bs)

theorem Taken.finish (h : Taken came taken c) (hopen : came.inputEnd = none) (e : InputEnd) :
    Taken { came with inputEnd := some e } taken
      { c with inbox := { c.inbox with inputEnd := some e } } where
  inputEnd := rfl
  bytes := h.bytes
  frames := h.frames
  ending := by
    intro x hphase
    obtain ⟨rfl, hlong⟩ := Inbox.overlong_of_stop (h.inputEnd.trans hopen) (h.ending x hphase)
    exact Inbox.next_of_overlong hlong

theorem Taken.turn (h : Taken came taken c) (hturn : Turn c c' new) :
    Taken came (taken ++ new) c' := by
  obtain ⟨hended, hbytes, hframes, -⟩ := h
  cases hturn with
  | @hold f rest hphase hnext =>
      obtain ⟨hframe, hunread, hrest⟩ := Inbox.next_eq_frame hnext
      simp only [held, hphase, List.append_nil] at hbytes hframes
      refine ⟨hrest.trans hended, ?_, ?_, by simp⟩
      · simp [held, hbytes, hunread]
      · simpa [held, or_imp, forall_and] using ⟨hframes, hframe⟩
  | permit hphase =>
      simp only [held, hphase] at hbytes hframes
      exact ⟨hended, by simpa [held] using hbytes, by simpa [held] using hframes, by simp⟩
  | enqueue hphase =>
      simp only [held, hphase] at hbytes hframes
      exact ⟨hended, by simpa [held] using hbytes, by simpa [held] using hframes, by simp⟩
  | leave hphase hnext =>
      simp only [held, hphase] at hbytes hframes
      refine ⟨hended, by simpa [held] using hbytes, by simpa [held] using hframes, ?_⟩
      rintro x ⟨⟩
      exact hnext

theorem Taken.congr (h : Taken came taken c) (hinbox : c'.inbox = c.inbox)
    (hphase : c'.phase = c.phase) : Taken came taken c' where
  inputEnd := by rw [hinbox, h.inputEnd]
  bytes := by rw [held, hphase, hinbox]; exact h.bytes
  frames := by rw [held, hphase]; exact h.frames
  ending := by rw [hphase, hinbox]; exact h.ending

/-- What a reader has taken are the first frames of what has come in. -/
theorem Taken.framing_eq (h : Taken came taken c) (e : InputEnd) :
    framing came.unread e =
      (taken ++ c.held ++ (framing c.inbox.unread e).1, (framing c.inbox.unread e).2) := by
  rw [h.bytes, framing_flatten_append h.frames]

theorem Taken.framing_of_left (h : Taken came taken c) {e : InputEnd}
    (hended : came.inputEnd = some e) {x : Ending} (hphase : c.phase = .left x) :
    framing came.unread e = (taken, x) := by
  have hnone := framing_of_stop (h.inputEnd.trans hended) (h.ending x hphase)
  rw [h.framing_eq, hnone, List.append_nil, held, hphase, List.append_nil]

end Connection

namespace Session

variable {σ : Type} {s₀ s s' : Session σ} {client : Client} {c : Connection} {i : Nat}
  {came : Inbox} {forwarded : List Request}

/-- The event loop runs, and there is no shutdown. -/
structure Going (s : Session σ) : Prop where
  running : s.running = true
  opened : s.stopped = false

/-- What others may do to a session: anything but to touch a connection or to shut it down. -/
structure Meanwhile (i : Nat) (s s' : Session σ) : Prop where
  going : s'.Going
  reader : ∀ c, s.connections[i]? = some c → ∃ c', s'.connections[i]? = some c' ∧
    c'.client = c.client ∧ c'.inbox = c.inbox ∧ c'.phase = c.phase

/-- A session in which the connection of a client is new. -/
structure Begins (client : Client) (s : Session σ) : Prop where
  going : s.Going
  connection : ∃ c, s.connections[client.id]? = some c ∧ c.client = client ∧ c.inbox = {} ∧
    c.phase = .reading

/-- From `s₀` on, the bytes and the end of `came` have come in for a client, its reader has taken
turns, in which it has put `forwarded` into the queue, and others have done something meanwhile. -/
inductive Reads (client : Client) (s₀ : Session σ) : Inbox → List Request → Session σ → Prop
  | start : Reads client s₀ {} [] s₀
  | arrive {came : Inbox} {forwarded : List Request} {s : Session σ}
      (h : Reads client s₀ came forwarded s) (hopen : came.inputEnd = none) (bs : Bytes) :
      Reads client s₀ (came.receive bs) forwarded
        (s.update client.id fun c ↦ { c with inbox := c.inbox.receive bs })
  | finish {came : Inbox} {forwarded : List Request} {s : Session σ}
      (h : Reads client s₀ came forwarded s) (hopen : came.inputEnd = none) (e : InputEnd) :
      Reads client s₀ { came with inputEnd := some e } forwarded
        (s.update client.id fun c ↦ { c with inbox := { c.inbox with inputEnd := some e } })
  | turn {came : Inbox} {forwarded : List Request} {s s' : Session σ}
      (h : Reads client s₀ came forwarded s) (hturn : s.readerStep client.id = some s') :
      Reads client s₀ came (forwarded ++ s'.requests.drop s.requests.length) s'
  | meanwhile {came : Inbox} {forwarded : List Request} {s s' : Session σ}
      (h : Reads client s₀ came forwarded s) (hothers : Meanwhile client.id s s') :
      Reads client s₀ came forwarded s'

theorem getElem?_update_self (hc : s.connections[i]? = some c) (f : Connection → Connection) :
    (s.update i f).connections[i]? = some (f c) := by
  simp [update, hc]

/-- While a session is going, a step of a reader is a turn. -/
theorem exists_turn (hgoing : s.Going) (hc : s.connections[c.client.id]? = some c)
    (hstep : s.readerStep c.client.id = some s') :
    ∃ c' new, Connection.Turn c c' new ∧ s'.connections[c.client.id]? = some c' ∧ s'.Going ∧
      s'.requests = s.requests ++ new.map (Request.mk c.client) ∧
      ∃ f, s'.connections = s.connections.modify c.client.id f := by
  obtain ⟨d, hd, hmove⟩ := readerStep_eq_some hstep
  obtain rfl : d = c := by
    rw [hc] at hd
    exact (Option.some.inj hd).symm
  cases hmove with
  | leave e hphase hwhy =>
      rcases hwhy with hstop | ⟨hreading, hnext⟩
      · rw [hgoing.opened] at hstop
        cases hstop
      · exact ⟨_, [], .leave hreading hnext, getElem?_update_self hc _,
          ⟨hgoing.running, hgoing.opened⟩, by simp [leave, update], _, rfl⟩
  | hold hphase hnext =>
      exact ⟨_, [], .hold hphase hnext, getElem?_update_self hc _,
        ⟨hgoing.running, hgoing.opened⟩, by simp [update], _, rfl⟩
  | permit hphase hpermits =>
      have hc' : { s with permits := s.permits - 1 }.connections[d.client.id]? = some d := hc
      exact ⟨_, [], .permit hphase, getElem?_update_self hc' _,
        ⟨hgoing.running, hgoing.opened⟩, by simp [update], _, rfl⟩
  | @enqueue f hphase hrunning =>
      have hc' : (s.enqueue ⟨d.client, f⟩).connections[d.client.id]? = some d := hc
      exact ⟨_, [f], .enqueue hphase, getElem?_update_self hc' _,
        ⟨hgoing.running, hgoing.opened⟩, by simp [update, enqueue], _, rfl⟩
  | detach hphase hrunning =>
      rw [hgoing.running] at hrunning
      cases hrunning

/-! ## Everyone else -/

/-- The moves of everyone but one reader while a session is going. -/
inductive Elsewhere [Store σ] (i : Nat) (s s' : Session σ) : Prop
  | takeRequest (h : s.takeRequest = some s')
  | takeDeparture (h : s.takeDeparture = some s')
  | reader (j : Nat) (hne : j ≠ i) (h : s.readerStep j = some s')
  | task (k : Nat) (h : s.taskStep k = some s')

theorem Meanwhile.of_connections (hgoing : s'.Going) (h : s'.connections = s.connections) :
    Meanwhile i s s' := by
  refine ⟨hgoing, fun c hc ↦ ⟨c, ?_, rfl, rfl, rfl⟩⟩
  rw [h, hc]

/-- What changes another connection, or only the replies of this one, leaves the reader alone. -/
theorem Meanwhile.of_update {j : Nat} {f : Connection → Connection} (hgoing : s'.Going)
    (h : s'.connections = s.connections.modify j f)
    (hf : j ≠ i ∨ ∀ c, (f c).client = c.client ∧ (f c).inbox = c.inbox ∧ (f c).phase = c.phase) :
    Meanwhile i s s' := by
  refine ⟨hgoing, fun c hc ↦ ?_⟩
  by_cases hji : j = i
  · subst hji
    obtain hne | hsame := hf
    · exact absurd rfl hne
    · obtain ⟨hclient, hinbox, hphase⟩ := hsame c
      exact ⟨f c, by simp [h, hc], hclient, hinbox, hphase⟩
  · exact ⟨c, by simp [h, hc, hji], rfl, rfl, rfl⟩

theorem deliver_same (r : Reply) (c : Connection) :
    (c.deliver r).client = c.client ∧ (c.deliver r).inbox = c.inbox ∧
      (c.deliver r).phase = c.phase := by
  unfold Connection.deliver
  split <;> exact ⟨rfl, rfl, rfl⟩

theorem Going.unregister (hgoing : s.Going) (client : Client) : (s.unregister client).Going := by
  unfold Session.unregister
  split
  · exact hgoing
  · split <;> exact ⟨hgoing.running, hgoing.opened⟩

/-- Everyone else's moves leave a reader alone. -/
theorem Elsewhere.meanwhile [Store σ] (hnumbered : s.Numbered) (hgoing : s.Going)
    (h : Elsewhere i s s') : Meanwhile i s s' := by
  cases h with
  | takeRequest h =>
      obtain ⟨-, r, rest, -, rfl⟩ := takeRequest_eq_some h
      exact .of_connections ⟨hgoing.running, hgoing.opened⟩ rfl
  | takeDeparture h =>
      obtain ⟨-, client, rest, -, rfl⟩ := takeDeparture_eq_some h
      have hrest : Going { s with departures := rest } := ⟨hgoing.running, hgoing.opened⟩
      exact .of_connections (hrest.unregister client) (unregister_connections client _)
  | reader j hne h =>
      obtain ⟨d, hd, -⟩ := readerStep_eq_some h
      obtain rfl := hnumbered j d hd
      obtain ⟨d', new, -, -, hgoing', -, f, hf⟩ := exists_turn hgoing hd h
      exact .of_update hgoing' hf (Or.inl hne)
  | task k h =>
      unfold taskStep at h
      split at h
      · cases h
        refine .of_update ⟨hgoing.running, ?_⟩ rfl (Or.inr (deliver_same _))
        exact (congrArg Channel.stopped (Dispatch.execute_channel _)).trans hgoing.opened
      · cases h
        exact .of_connections ⟨hgoing.running, hgoing.opened⟩ rfl
      · cases h
        refine .of_connections ⟨hgoing.running, ?_⟩ rfl
        exact (congrArg Channel.stopped Dispatch.revoke_channel).trans hgoing.opened
      · cases h

/-! ## The whole input -/

/-- A reader at the end of its input can go on, given a permit and a place in the queue. -/
theorem exists_readerStep (hgoing : s.Going) (hc : s.connections[i]? = some c)
    (hleft : ∀ x, c.phase ≠ .left x) {e : InputEnd} (hended : c.inbox.inputEnd = some e)
    (hpermits : s.permits ≠ 0) (hroom : s.requests.length < s.options.queueCapacity) :
    ∃ s', s.readerStep i = some s' := by
  have hstep : s.readerStep i = s.connectionStep c := by rw [readerStep, hc]; rfl
  rw [hstep, connectionStep]
  cases hphase : c.phase with
  | reading =>
      cases hnext : c.inbox.next with
      | frame f rest => exact ⟨_, rfl⟩
      | stop x => exact ⟨_, rfl⟩
      | wait => exact absurd hnext (Inbox.next_ne_wait hended)
  | holding f => exact ⟨_, by simp [hpermits]; rfl⟩
  | permitted f => exact ⟨_, by simp [hgoing.running, hroom]; rfl⟩
  | left x => exact absurd hphase (hleft x)

/-- What a reader has done, as far as its connection shows it. -/
theorem Reads.taken (hbegins : Begins client s₀) (h : Reads client s₀ came forwarded s) :
    s.Going ∧ ∃ c taken, s.connections[client.id]? = some c ∧ c.client = client ∧
      forwarded = taken.map (Request.mk client) ∧ Connection.Taken came taken c := by
  induction h with
  | start =>
      obtain ⟨hgoing, c, hc, hclient, hinbox, hphase⟩ := hbegins
      exact ⟨hgoing, c, [], hc, hclient, rfl, .start hinbox hphase⟩
  | arrive h hopen bs ih =>
      obtain ⟨hgoing, c, taken, hc, hclient, hforwarded, htaken⟩ := ih
      exact ⟨⟨hgoing.running, hgoing.opened⟩, _, taken, getElem?_update_self hc _, hclient,
        hforwarded, htaken.arrive hopen bs⟩
  | finish h hopen e ih =>
      obtain ⟨hgoing, c, taken, hc, hclient, hforwarded, htaken⟩ := ih
      exact ⟨⟨hgoing.running, hgoing.opened⟩, _, taken, getElem?_update_self hc _, hclient,
        hforwarded, htaken.finish hopen e⟩
  | @turn came forwarded s s' h hturn ih =>
      obtain ⟨hgoing, c, taken, hc, rfl, rfl, htaken⟩ := ih
      obtain ⟨c', new, hnew, hc', hgoing', hrequests, -⟩ := exists_turn hgoing hc hturn
      refine ⟨hgoing', c', taken ++ new, hc', hnew.client_eq, ?_, htaken.turn hnew⟩
      rw [hrequests, List.drop_left, List.map_append]
  | meanwhile h hothers ih =>
      obtain ⟨-, c, taken, hc, hclient, hforwarded, htaken⟩ := ih
      obtain ⟨c', hc', hclient', hinbox, hphase⟩ := hothers.reader c hc
      refine ⟨hothers.going, c', taken, hc', hclient'.trans hclient, hforwarded, ?_⟩
      exact htaken.congr hinbox hphase

/-- Take any reader whose input comes in piece by piece and then ends, in a session that goes on.
Either it has left, having put the frames of the whole input into the queue and for the reason that
the input gives; or it has put a beginning of them into the queue, and given a permit and a place it
takes another of its finitely many turns.  A frame is a line, and a beginning of the input is made
of frames; and among lines it is those with more than `maxFrame` bytes that are too long. -/
theorem reader_frames_input (hbegins : Begins client s₀) (h : Reads client s₀ came forwarded s)
    {e : InputEnd} (hended : came.inputEnd = some e) :
    let frames := (framing came.unread e).1
    let ending := (framing came.unread e).2
    (∃ c, s.connections[client.id]? = some c ∧
      ((c.phase = .left ending ∧ forwarded = frames.map (Request.mk client)) ∨
        ((∀ x, c.phase ≠ .left x) ∧ forwarded <+: frames.map (Request.mk client) ∧
          (s.permits ≠ 0 → s.requests.length < s.options.queueCapacity →
            ∃ s' c', s.readerStep client.id = some s' ∧
              s'.connections[client.id]? = some c' ∧ c'.work < c.work)))) ∧
    (∀ r ∈ forwarded, IsFrame r.payload) ∧
    (forwarded.map Request.payload).flatten <+: came.unread ∧
    (∀ l ∈ (lines came.unread).1, Overlong l ↔ maxFrame < l.length) ∧
    ∀ n, ending = .truncated n → 0 < n ∧ n < maxFrame := by
  obtain ⟨hgoing, c, taken, hc, rfl, rfl, htaken⟩ := h.taken hbegins
  intro frames ending
  have hpayloads : (taken.map (Request.mk c.client)).map Request.payload = taken := by
    rw [List.map_map]
    exact List.map_id taken
  refine ⟨⟨c, hc, ?_⟩, ?_, ?_, ?_, fun n ↦ truncated_lt⟩
  · by_cases hleft : ∃ x, c.phase = .left x
    · obtain ⟨x, hphase⟩ := hleft
      have hframing := htaken.framing_of_left hended hphase
      have hframes : frames = taken := congrArg Prod.fst hframing
      have hending : ending = x := congrArg Prod.snd hframing
      exact Or.inl ⟨by rw [hphase, hending], by rw [hframes]⟩
    · have hleft' : ∀ x, c.phase ≠ .left x := fun x hphase ↦ hleft ⟨x, hphase⟩
      refine Or.inr ⟨hleft', ?_, fun hpermits hroom ↦ ?_⟩
      · apply List.IsPrefix.map
        have hframing := congrArg Prod.fst (htaken.framing_eq e)
        rw [List.append_assoc] at hframing
        exact ⟨_, hframing.symm⟩
      · obtain ⟨s', hstep⟩ := exists_readerStep hgoing hc hleft'
          (htaken.inputEnd.trans hended) hpermits hroom
        obtain ⟨c', new, hnew, hc', -⟩ := exists_turn hgoing hc hstep
        exact ⟨s', c', hstep, hc', hnew.work_lt⟩
  · intro r hr
    obtain ⟨f, hf, rfl⟩ := List.mem_map.mp hr
    exact htaken.frames f (List.mem_append_left _ hf)
  · rw [hpayloads, htaken.bytes, List.flatten_append, List.append_assoc]
    exact List.prefix_append _ _
  · intro l hl
    exact overlong_iff_of_isLine (isLine_of_mem_lines hl)

/-- A session with one connection. -/
def lone (c : Connection) (permits : Nat) (requests : List Request) (tasks : List Task) :
    Session Memory :=
  { options := { queueCapacity := 1, maxInflight := 2 }, data := { store := {} },
    connections := [c], permits, requests, tasks }

theorem numbered_lone (identity : String) (inbox : Inbox) (phase : Phase) (permits : Nat)
    (requests : List Request) (tasks : List Task) :
    (lone { client := ⟨0, identity⟩, inbox, phase } permits requests tasks).Numbered := by
  intro i c hc
  cases i with
  | zero =>
      cases hc
      rfl
  | succ i => cases hc

/-- A frame and a half in two reads, with the event loop at work in between. -/
theorem frame_and_half_framed :
    let client : Client := ⟨0, "a"⟩
    let s₀ := lone { client } 2 [] []
    ∃ s forwarded, Begins client s₀ ∧
      Reads client s₀ ⟨[0x61, 0x0A, 0x62, 0x63], some .closed⟩ forwarded s ∧
      forwarded = [⟨client, [0x61, 0x0A]⟩] ∧
      ∃ c, s.connections[0]? = some c ∧ c.phase = .left (.truncated 2) := by
  intro client s₀
  have hbegins : Begins client s₀ := ⟨⟨rfl, rfl⟩, _, rfl, rfl, rfl, rfl⟩
  have hcame : Reads client s₀ ⟨[0x61, 0x0A, 0x62], none⟩ []
      (lone { client, inbox := ⟨[0x61, 0x0A, 0x62], none⟩ } 2 [] []) := .arrive .start rfl _
  have hhold : (lone { client, inbox := ⟨[0x61, 0x0A, 0x62], none⟩ } 2 [] []).readerStep 0 =
      some (lone { client, inbox := ⟨[0x62], none⟩, phase := .holding [0x61, 0x0A] } 2 [] []) := rfl
  have hpermit : (lone { client, inbox := ⟨[0x62], none⟩, phase := .holding [0x61, 0x0A] }
      2 [] []).readerStep 0 =
      some (lone { client, inbox := ⟨[0x62], none⟩, phase := .permitted [0x61, 0x0A] }
        1 [] []) := rfl
  have hmore : Reads client s₀ ⟨[0x61, 0x0A, 0x62, 0x63], none⟩ []
      (lone { client, inbox := ⟨[0x62, 0x63], none⟩, phase := .permitted [0x61, 0x0A] } 1 [] []) :=
    .arrive ((hcame.turn hhold).turn hpermit) rfl [0x63]
  have henqueue : (lone { client, inbox := ⟨[0x62, 0x63], none⟩, phase := .permitted [0x61, 0x0A] }
      1 [] []).readerStep 0 =
      some (lone { client, inbox := ⟨[0x62, 0x63], none⟩ } 1 [⟨client, [0x61, 0x0A]⟩] []) := rfl
  have hloop := (hmore.turn henqueue).meanwhile
    (Elsewhere.meanwhile (numbered_lone _ _ _ _ _ _) ⟨rfl, rfl⟩ (.takeRequest rfl))
  have hleave : (lone { client, inbox := ⟨[0x62, 0x63], some .closed⟩ } 1 []
      [.reply ⟨client, [0x61, 0x0A]⟩]).readerStep 0 =
      some { lone { client, inbox := ⟨[0x62, 0x63], some .closed⟩, phase := .left (.truncated 2) }
        1 [] [.reply ⟨client, [0x61, 0x0A]⟩] with departures := [client] } := rfl
  have hleft := (hloop.finish rfl .closed).turn hleave
  obtain ⟨⟨c, hc, hcases⟩, -⟩ := reader_frames_input hbegins hleft rfl
  refine ⟨_, _, hbegins, hleft, rfl, ?_⟩
  obtain ⟨hphase, -⟩ | ⟨-, -, hgoes⟩ := hcases
  · exact ⟨c, hc, hphase⟩
  · -- the reader has no turn left to take
    obtain ⟨s', c', hstep, -⟩ := hgoes (by decide) (by decide)
    cases hstep

end Session

end KvServer
