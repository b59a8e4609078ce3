import KvServer.Session.Registry
import Mathlib.Data.List.Nodup

/-!
# Enrolments and removals

Clients enrol in the registry and are removed from it in any order, as often as someone asks for
it.  A move that changes nothing is answered so and does not count.  The moves of one client that
count take turns, whatever the other clients do, and the size of the registry is what is left when
all removals are taken from all enrolments (`accounts_are_exact`).
-/

namespace KvServer

namespace Registry

variable {r : Registry} {c d : Client} {i : Nat}

/-! ## One operation -/

theorem enroll_fst : (r.enroll c).1 = r.members[c.id]?.isNone := by
  unfold enroll
  split <;> simp_all

/-- Who has a number keeps it, whoever asks for it. -/
theorem getElem?_enroll (j : Nat) :
    (r.enroll c).2.members[j]? =
      if c.id = j then some (r.members[j]?.getD c) else r.members[j]? := by
  unfold enroll
  split
  next hmem =>
    split
    next hj =>
      subst hj
      rw [Std.ExtTreeMap.getElem?_eq_some_getElem hmem, Option.getD_some]
    · rfl
  next hmem =>
    rw [Std.ExtTreeMap.getElem?_insert]
    by_cases hj : c.id = j
    · subst hj
      simp [Std.ExtTreeMap.getElem?_eq_none hmem]
    · simp [hj]

theorem getElem?_enroll_of_none (h : r.members[c.id]? = none) (j : Nat) :
    (r.enroll c).2.members[j]? = if c.id = j then some c else r.members[j]? := by
  rw [getElem?_enroll]
  by_cases hj : c.id = j
  · simp [← hj, h]
  · rw [if_neg hj, if_neg hj]

theorem remove_fst : (r.remove i).1 = r.members[i]? := by
  unfold remove
  split <;> simp_all

theorem getElem?_remove (j : Nat) :
    (r.remove i).2.members[j]? = if i = j then none else r.members[j]? := by
  unfold remove
  split
  · simp [Std.ExtTreeMap.getElem?_erase]
  next hnone =>
    by_cases hj : i = j
    · simp [← hj, hnone]
    · simp [hj]

theorem mem_remove {j : Nat} : j ∈ (r.remove i).2.members ↔ i ≠ j ∧ j ∈ r.members := by
  rw [← Std.ExtTreeMap.isSome_getElem?_iff_mem, ← Std.ExtTreeMap.isSome_getElem?_iff_mem,
    getElem?_remove]
  by_cases hj : i = j <;> simp [hj]

theorem size_enroll : (r.enroll c).2.size = r.size + if (r.enroll c).1 then 1 else 0 := by
  unfold enroll
  split
  · simp
  next hmem => simp [size, Std.ExtTreeMap.size_insert, hmem]

theorem size_remove : (r.remove i).2.size + (if (r.remove i).1.isSome then 1 else 0) = r.size := by
  unfold remove
  split
  next c hc =>
    have hmem : i ∈ r.members := Std.ExtTreeMap.mem_iff_isSome_getElem?.mpr (by simp [hc])
    have hsize : r.members.size ≠ 0 := by
      intro hzero
      rw [Std.ExtTreeMap.eq_empty_iff_size_eq_zero.mpr hzero] at hmem
      simp at hmem
    simp [size, Std.ExtTreeMap.size_erase, hmem]
    omega
  · simp

theorem size_empty : ({} : Registry).size = 0 := Std.ExtTreeMap.size_empty

/-! ## Members -/

def HasMember (r : Registry) (c : Client) : Prop := r.members[c.id]? = some c

instance (r : Registry) : DecidablePred r.HasMember :=
  fun _ ↦ inferInstanceAs (Decidable (_ = _))

/-- Only certain clients are enrolled, each under its number. -/
def Holds (cs : List Client) (r : Registry) : Prop :=
  ∀ j c, r.members[j]? = some c → c ∈ cs ∧ c.id = j

variable {cs : List Client}

theorem holds_empty (cs : List Client) : Holds cs {} := by
  intro j c h
  simp at h

theorem Holds.enroll (hr : r.Holds cs) (hc : c ∈ cs) : (r.enroll c).2.Holds cs := by
  intro j d hd
  rw [getElem?_enroll] at hd
  split at hd
  next hj =>
    cases hold : r.members[j]? with
    | none =>
        rw [hold] at hd
        obtain rfl := Option.some.inj hd
        exact ⟨hc, hj⟩
    | some e =>
        rw [hold] at hd
        obtain rfl := Option.some.inj hd
        exact hr j _ hold
  · exact hr j d hd

theorem Holds.remove (hr : r.Holds cs) : (r.remove i).2.Holds cs := by
  intro j d hd
  rw [getElem?_remove] at hd
  split at hd
  · cases hd
  · exact hr j d hd

section Numbered

variable (hids : (cs.map Client.id).Nodup) (hr : r.Holds cs)
include hids

theorem id_inj (hc : c ∈ cs) (hd : d ∈ cs) : c.id = d.id ↔ c = d :=
  ⟨List.inj_on_of_nodup_map hids hc hd, congrArg Client.id⟩

include hr

/-- Whoever is found under the number of a client is that very client. -/
theorem getElem?_id (hc : c ∈ cs) :
    r.members[c.id]? = if r.HasMember c then some c else none := by
  split
  · assumption
  next hnot =>
    rw [Option.eq_none_iff_forall_ne_some]
    intro d hd
    obtain ⟨hmem, hid⟩ := hr _ d hd
    obtain rfl := (id_inj hids hmem hc).mp hid
    exact hnot hd

theorem enroll_fst_iff (hc : c ∈ cs) : (r.enroll c).1 = true ↔ ¬ r.HasMember c := by
  rw [enroll_fst, getElem?_id hids hr hc]
  split <;> simp_all

theorem remove_id_fst (hc : c ∈ cs) :
    (r.remove c.id).1 = if r.HasMember c then some c else none :=
  remove_fst.trans (getElem?_id hids hr hc)

theorem hasMember_enroll (hc : c ∈ cs) (hd : d ∈ cs) :
    (r.enroll c).2.HasMember d ↔ d = c ∨ r.HasMember d := by
  rw [HasMember, getElem?_enroll]
  by_cases hcd : c = d
  · subst hcd
    rw [if_pos rfl, getElem?_id hids hr hc]
    split <;> simp
  · rw [if_neg ((id_inj hids hc hd).not.mpr hcd)]
    simp [HasMember, Ne.symm hcd]

omit hr in
theorem hasMember_remove (hc : c ∈ cs) (hd : d ∈ cs) :
    (r.remove c.id).2.HasMember d ↔ d ≠ c ∧ r.HasMember d := by
  rw [HasMember, getElem?_remove]
  by_cases hcd : c = d
  · simp [hcd]
  · rw [if_neg ((id_inj hids hc hd).not.mpr hcd)]
    simp [HasMember, Ne.symm hcd]

/-- The numbers under which the registry has someone are those of its members. -/
theorem size_eq_length_filter : r.size = (cs.filter fun c ↦ r.HasMember c).length := by
  have hkeys : ∀ j, j ∈ r.members.keys ↔ j ∈ (cs.filter fun c ↦ r.HasMember c).map Client.id := by
    intro j
    simp only [Std.ExtTreeMap.mem_keys, Std.ExtTreeMap.mem_iff_isSome_getElem?,
      Option.isSome_iff_exists, List.mem_map, List.mem_filter, decide_eq_true_eq]
    constructor
    · rintro ⟨c, hc⟩
      obtain ⟨hmem, rfl⟩ := hr j c hc
      exact ⟨c, ⟨hmem, hc⟩, rfl⟩
    · rintro ⟨c, ⟨-, hc⟩, rfl⟩
      exact ⟨c, hc⟩
  have hnodup : ((cs.filter fun c ↦ r.HasMember c).map Client.id).Nodup :=
    hids.sublist (List.filter_sublist.map _)
  have hperm := (List.perm_ext_iff_of_nodup Std.ExtTreeMap.nodup_keys hnodup).mpr hkeys
  simpa [size, Std.ExtTreeMap.length_keys] using hperm.length_eq

end Numbered

/-! ## Moves and their answers -/

inductive Move
  | enroll (c : Client)
  | remove (c : Client)
deriving DecidableEq, Repr

inductive Answer
  | enrolled (new : Bool)
  | removed (member? : Option Client)
deriving DecidableEq, Repr

def Move.client : Move → Client
  | .enroll c | .remove c => c

def Move.isEnroll : Move → Bool
  | .enroll _ => true
  | .remove _ => false

/-- Whether a move is told to have changed something. -/
def Answer.isSuccess : Answer → Bool
  | .enrolled new => new
  | .removed member? => member?.isSome

def perform (r : Registry) : Move → Answer × Registry
  | .enroll c => (r.enroll c).map .enrolled id
  | .remove c => (r.remove c.id).map .removed id

/-- Carries out moves one after the other, and notes their answers. -/
def run (r : Registry) : List Move → List (Move × Answer) × Registry
  | [] => ([], r)
  | m :: ms =>
      let (a, r) := r.perform m
      let (log, r) := r.run ms
      ((m, a) :: log, r)

theorem run_cons (r : Registry) (m : Move) (ms : List Move) :
    r.run (m :: ms) =
      ((m, (r.perform m).1) :: ((r.perform m).2.run ms).1, ((r.perform m).2.run ms).2) :=
  rfl

/-- The moves that count. -/
def done (log : List (Move × Answer)) : List Move :=
  (log.filter fun e ↦ e.2.isSuccess).map (·.1)

/-- The moves of a client that count. -/
def doneBy (c : Client) (log : List (Move × Answer)) : List Move :=
  (done log).filter fun m ↦ m.client = c

theorem done_cons (m : Move) (a : Answer) (log : List (Move × Answer)) :
    done ((m, a) :: log) = if a.isSuccess = true then m :: done log else done log := by
  cases h : a.isSuccess <;> simp [done, h]

theorem doneBy_cons (c : Client) (m : Move) (a : Answer) (log : List (Move × Answer)) :
    doneBy c ((m, a) :: log) =
      if a.isSuccess = true ∧ m.client = c then m :: doneBy c log else doneBy c log := by
  rw [doneBy, done_cons]
  by_cases hsuccess : a.isSuccess = true
  · rw [if_pos hsuccess, List.filter_cons]
    simp [hsuccess, doneBy]
  · simp [hsuccess, doneBy]

/-- The move of a client that was the last to count.  A client that never enrolled is as good as
removed. -/
def lastMove (r : Registry) (c : Client) : Move := if r.HasMember c then .enroll c else .remove c

theorem lastMove_eq_enroll_iff : r.lastMove c = .enroll c ↔ r.HasMember c := by
  unfold lastMove
  split <;> simp [*]

theorem lastMove_empty (c : Client) : ({} : Registry).lastMove c = .remove c := by
  simp [lastMove, HasMember]

variable {m : Move} {ms : List Move}

theorem Holds.perform (hr : r.Holds cs) (hm : m.client ∈ cs) : (r.perform m).2.Holds cs := by
  cases m with
  | enroll c => exact hr.enroll hm
  | remove c => exact hr.remove

theorem size_perform :
    (r.perform m).2.size + (if (r.perform m).1.isSuccess && !m.isEnroll then 1 else 0) =
      r.size + if (r.perform m).1.isSuccess && m.isEnroll then 1 else 0 := by
  cases m with
  | enroll c => simp [perform, Move.isEnroll, Answer.isSuccess, size_enroll]
  | remove c =>
      have hsize := size_remove (r := r) (i := c.id)
      simp [perform, Move.isEnroll, Answer.isSuccess, hsize]

section Turns

variable (hids : (cs.map Client.id).Nodup)
include hids

/-- A move counts exactly if it is not the last that counted, and it is the last one then. -/
theorem isSuccess_perform (hr : r.Holds cs) (hm : m.client ∈ cs) :
    (r.perform m).1.isSuccess = true ↔ r.lastMove m.client ≠ m := by
  cases m with
  | enroll c =>
      refine (enroll_fst_iff hids hr hm).trans ?_
      unfold lastMove
      split <;> simp_all [Move.client]
  | remove c =>
      have hfst := remove_id_fst hids hr hm
      unfold lastMove
      split <;> simp_all [perform, Answer.isSuccess, Move.client]

/-- A move of a client is its last one then, and leaves that of every other. -/
theorem lastMove_perform (hr : r.Holds cs) (hm : m.client ∈ cs) (hc : c ∈ cs) :
    (r.perform m).2.lastMove c = if m.client = c then m else r.lastMove c := by
  cases m with
  | enroll d =>
      have hmember := hasMember_enroll hids hr (c := d) hm hc
      show (r.enroll d).2.lastMove c = if d = c then .enroll d else r.lastMove c
      by_cases hcd : d = c
      · subst hcd
        rw [if_pos rfl, lastMove, if_pos (hmember.mpr (.inl rfl))]
      · have hsame := hmember.trans (or_iff_right (Ne.symm hcd))
        simp only [if_neg hcd, lastMove, hsame]
  | remove d =>
      have hmember := hasMember_remove hids (r := r) (c := d) hm hc
      show (r.remove d.id).2.lastMove c = if d = c then .remove d else r.lastMove c
      by_cases hcd : d = c
      · subst hcd
        rw [if_pos rfl, lastMove, if_neg fun h ↦ (hmember.mp h).1 rfl]
      · have hsame := hmember.trans (and_iff_right (Ne.symm hcd))
        simp only [if_neg hcd, lastMove, hsame]

/-- The moves of a client that count take turns with its last one before, and end in its last. -/
theorem turns_of_run (hr : r.Holds cs) (hms : ∀ m ∈ ms, m.client ∈ cs) (hc : c ∈ cs) :
    (r.lastMove c :: doneBy c (r.run ms).1).IsChain (· ≠ ·) ∧
      (r.run ms).2.lastMove c = (doneBy c (r.run ms).1).getLastD (r.lastMove c) := by
  induction ms generalizing r with
  | nil => exact ⟨.singleton _, rfl⟩
  | cons m ms ih =>
      obtain ⟨hm, hms⟩ := List.forall_mem_cons.mp hms
      obtain ⟨hchain, hlast⟩ := ih (hr.perform hm) hms
      have hstep := lastMove_perform hids hr hm hc
      rw [run_cons, doneBy_cons]
      by_cases hmc : m.client = c
      · rw [if_pos hmc] at hstep
        rw [hstep] at hchain hlast
        have hcounts := isSuccess_perform hids hr hm
        rw [hmc] at hcounts
        by_cases hsuccess : (r.perform m).1.isSuccess = true
        · rw [if_pos ⟨hsuccess, hmc⟩]
          exact ⟨.cons_cons (hcounts.mp hsuccess) hchain, hlast.trans List.getLastD_cons.symm⟩
        · rw [if_neg fun h ↦ hsuccess h.1, of_not_not (hcounts.not.mp hsuccess)]
          exact ⟨hchain, hlast⟩
      · rw [if_neg hmc] at hstep
        rw [hstep] at hchain hlast
        rw [if_neg fun h ↦ hmc h.2]
        exact ⟨hchain, hlast⟩

end Turns

theorem Holds.run (hr : r.Holds cs) (hms : ∀ m ∈ ms, m.client ∈ cs) : (r.run ms).2.Holds cs := by
  induction ms generalizing r with
  | nil => exact hr
  | cons m ms ih =>
      obtain ⟨hm, hms⟩ := List.forall_mem_cons.mp hms
      exact ih (hr.perform hm) hms

theorem size_run :
    (r.run ms).2.size + (done (r.run ms).1).countP (!·.isEnroll) =
      r.size + (done (r.run ms).1).countP (·.isEnroll) := by
  induction ms generalizing r with
  | nil => rfl
  | cons m ms ih =>
      have hstep := size_perform (r := r) (m := m)
      have hrest := ih (r := (r.perform m).2)
      rw [run_cons, done_cons]
      cases hsuccess : (r.perform m).1.isSuccess <;> cases henroll : m.isEnroll <;>
        simp [hsuccess, henroll] at hstep ⊢ <;> omega

/-- Take clients with numbers of their own, who may share their addresses, and any moves of theirs
on the empty registry.  The moves of each client that count take turns, an enrolment first, and it
is a member exactly after an enrolment.  Whatever moves have been made, a client enrols exactly if
it is no member, a removal finds that very client exactly if it is one, and neither changes who
else is a member.  The size is the number of enrolments that count less that of removals, and the
number of members. -/
theorem accounts_are_exact (hids : (cs.map Client.id).Nodup) (hms : ∀ m ∈ ms, m.client ∈ cs) :
    let log := (run {} ms).1
    let r := (run {} ms).2
    (∀ c ∈ cs, (.remove c :: doneBy c log).IsChain (· ≠ ·) ∧
        (r.HasMember c ↔ (doneBy c log).getLast? = some (.enroll c)) ∧
        ((r.enroll c).1 = true ↔ ¬ r.HasMember c) ∧
        (r.remove c.id).1 = (if r.HasMember c then some c else none) ∧
        ∀ d ∈ cs, ((r.enroll c).2.HasMember d ↔ d = c ∨ r.HasMember d) ∧
          ((r.remove c.id).2.HasMember d ↔ d ≠ c ∧ r.HasMember d)) ∧
      r.size + (done log).countP (!·.isEnroll) = (done log).countP (·.isEnroll) ∧
      r.size = (cs.filter fun c ↦ r.HasMember c).length ∧
      (r.isEmpty = true ↔ r.size = 0) := by
  intro log r
  have hr : r.Holds cs := (holds_empty cs).run hms
  refine ⟨fun c hc ↦ ?_, ?_, size_eq_length_filter hids hr, beq_iff_eq⟩
  · obtain ⟨hchain, hlast⟩ := turns_of_run hids (holds_empty cs) hms hc
    refine ⟨hchain, ?_, enroll_fst_iff hids hr hc, remove_id_fst hids hr hc, fun d hd ↦
      ⟨hasMember_enroll hids hr hc hd, hasMember_remove hids hc hd⟩⟩
    rw [← lastMove_eq_enroll_iff, hlast, List.getLastD_eq_getLast?, lastMove_empty]
    cases (doneBy c log).getLast? <;> simp
  · rw [size_run, size_empty, Nat.zero_add]

/-- Two clients of one address: the first is removed twice and comes back, the second leaves. -/
theorem namesakes_keep_apart :
    let a : Client := ⟨1, "i"⟩
    let b : Client := ⟨2, "i"⟩
    let ms : List Move :=
      [.enroll a, .enroll b, .enroll a, .remove a, .remove a, .enroll a, .remove b]
    let log := (run {} ms).1
    let r := (run {} ms).2
    doneBy a log = [.enroll a, .remove a, .enroll a] ∧ doneBy b log = [.enroll b, .remove b] ∧
      r.HasMember a ∧ ¬ r.HasMember b ∧ (r.remove 1).1 = some a ∧ (r.remove 2).1 = none ∧
        r.size = 1 := by
  intro a b ms log r
  have hids : ([a, b].map Client.id).Nodup := by decide
  have hms : ∀ m ∈ ms, m.client ∈ [a, b] := by decide
  obtain ⟨hclients, hcount, -, -⟩ := accounts_are_exact hids hms
  obtain ⟨-, hmember, -, hremove, -⟩ := hclients a (by decide)
  obtain ⟨-, hmember', -, hremove', -⟩ := hclients b (by decide)
  have hdone : doneBy a log = [.enroll a, .remove a, .enroll a] := by decide
  have hdone' : doneBy b log = [.enroll b, .remove b] := by decide
  have ha : r.HasMember a := hmember.mpr (by rw [hdone]; rfl)
  have hb : ¬ r.HasMember b := hmember'.not.mpr (by rw [hdone']; decide)
  refine ⟨hdone, hdone', ha, hb, hremove.trans (if_pos ha), hremove'.trans (if_neg hb), ?_⟩
  have hcounts : (done log).countP (!·.isEnroll) = 2 ∧ (done log).countP (·.isEnroll) = 3 := by
    decide
  change r.size + (done log).countP (!·.isEnroll) = (done log).countP (·.isEnroll) at hcount
  omega

end Registry

end KvServer
