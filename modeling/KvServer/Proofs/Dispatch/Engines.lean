import KvServer.Proofs.Dispatch.Bisimulation
import KvServer.Proofs.Store.Contents
import KvServer.Proofs.Store.Encoding

/-!
# Interchangeable stores

Stores that answer alike still do so behind a record of calls and under the same faults
(`Recorded.bisimulation`).  So a dispatcher on one of them runs as on the other, whatever the steps
of the run (`TimedStore.Alike.runSteps`).  The store in memory and the durable tree are such stores,
also when the tree is closed and opened again before any call (`runs_alike_in_memory_and_on_tree`).
-/

namespace KvServer

variable {σ τ : Type} {R : σ → τ → Prop}

namespace Recorded

/-- Two recorded stores with related stores inside, the same faults and the same record. -/
structure Alike (R : σ → τ → Prop) (a : Recorded σ) (b : Recorded τ) : Prop where
  store : R a.store b.store
  faults : a.faults = b.faults
  notes : a.notes = b.notes

variable {a : Recorded σ} {b : Recorded τ}

theorem Alike.setFault (h : Alike R a b) (kind : CallKind) (error? : Option StoreError) :
    Alike R (a.setFault kind error?) (b.setFault kind error?) where
  store := h.store
  faults := by simp only [Recorded.setFault, h.faults]
  notes := h.notes

theorem Alike.note (h : Alike R a b) (c : Call) (o : c.Outcome) :
    Alike R (a.note c o) (b.note c o) where
  store := h.store
  faults := h.faults
  notes := by simp only [Recorded.note, h.notes]

variable [Store σ] [Store τ]

theorem Alike.direct (hR : Store.Bisimulation R) (h : Alike R a b) (c : Call) :
    (a.direct c).1 = (b.direct c).1 ∧ Alike R (a.direct c).2 (b.direct c).2 :=
  ⟨hR.answer h.store c, hR.next h.store c, h.faults, h.notes⟩

theorem Alike.call (hR : Store.Bisimulation R) (h : Alike R a b) (c : Call) :
    (Store.call c a).1 = (Store.call c b).1 ∧ Alike R (Store.call c a).2 (Store.call c b).2 := by
  cases hfault : b.faults c.kind with
  | some e =>
      rw [call_of_fault hfault, call_of_fault ((congrFun h.faults _).trans hfault)]
      exact ⟨rfl, h.note c (.error e)⟩
  | none =>
      obtain ⟨hanswer, hnext⟩ := h.direct hR c
      rw [call_of_no_fault hfault, call_of_no_fault ((congrFun h.faults _).trans hfault)]
      refine ⟨hR.answer h.store c, ?_⟩
      rw [hR.answer h.store c]
      exact hnext.note c _

theorem bisimulation (hR : Store.Bisimulation R) : Recorded.Bisimulation (Recorded.Alike R) where
  answer h c := (h.call hR c).1
  next h c := (h.call hR c).2
  setFault h := h.setFault
  direct h := h.direct hR

end Recorded

/-- Every run of a dispatcher is answered alike on stores that answer alike. -/
theorem TimedStore.Alike.runSteps [Store σ] [Store τ] (hR : Store.Bisimulation R)
    {s : TimedStore (Recorded σ)} {t : TimedStore (Recorded τ)} (h : Alike (Recorded.Alike R) s t)
    (secret : Option String) (sts : List Dispatch.Step) :
    (Dispatch.runSteps secret sts s).1 = (Dispatch.runSteps secret sts t).1 ∧
      Alike (Recorded.Alike R) (Dispatch.runSteps secret sts s).2
        (Dispatch.runSteps secret sts t).2 :=
  h.run (Recorded.bisimulation hR) secret sts

namespace Dispatch

open Text

/-- A run that starts on an empty store gives the same replies, the same outcomes of calls from
outside with their errors and the same record of calls in memory and on a tree, whatever happens to
the tree before each call as long as it keeps its contents.  In the end the tree holds the keys and
values of the store in memory, encoded, and nothing else. -/
theorem runs_alike_in_memory_and_on_tree (secret : Option String) (sts : List Step) (now : Nat)
    (channel : Channel) (interrupt : Nat → Tree → Tree)
    (hinterrupt : ∀ n, Tree.Survives (interrupt n)) :
    let inMemory := runSteps secret sts { store := { store := ({} : Memory) }, now, channel }
    let onTree :=
      runSteps secret sts { store := { store := ({ interrupt } : Durable) }, now, channel }
    inMemory.1 = onTree.1 ∧ inMemory.2.store.calls = onTree.2.store.calls ∧
      onTree.2.store.store.tree.Encodes inMemory.2.store.store ∧
      onTree.2.store.store.tree.texts.Perm inMemory.2.store.store.entries := by
  intro inMemory onTree
  have hstart : TimedStore.Alike (Recorded.Alike Durable.Mirrors)
      { store := { store := ({} : Memory) }, now, channel }
      { store := { store := ({ interrupt } : Durable) }, now, channel } :=
    ⟨⟨⟨.empty, hinterrupt⟩, rfl, rfl⟩, rfl, rfl, rfl, rfl⟩
  obtain ⟨hanswers, hend⟩ := hstart.runSteps Durable.bisimulation secret sts
  refine ⟨hanswers, congrArg List.reverse hend.store.notes, ?_, ?_⟩
  · exact hend.store.store.encodes
  · exact hend.store.store.encodes.texts_perm

/-- A value outlives a tree that is closed and opened again before every call, and a value with a
time to live is gone from it in time. -/
theorem tree_reopened_before_every_call :
    let sts : List Step := [.frame "P" (bytesOf "SET é 1"), .frame "P" (bytesOf "SET k 2 1"),
      .fault .get (some (.backend "x")), .frame "P" (bytesOf "GET é"), .advance 1000,
      .direct (.get "k")]
    let onTree := runSteps none sts
      { store := { store := ({ interrupt := fun _ ↦ Tree.reopen } : Durable) } }
    (∀ _ : Nat, Tree.Survives Tree.reopen) ∧ onTree.2.store.store.tree.texts.Perm [("é", "1")] := by
  intro sts onTree
  have hinterrupt : ∀ _ : Nat, Tree.Survives Tree.reopen := fun _ ↦ Tree.survives_reopen
  obtain ⟨-, -, -, htexts⟩ :=
    runs_alike_in_memory_and_on_tree none sts 0 {} (fun _ ↦ Tree.reopen) hinterrupt
  refine ⟨hinterrupt, htexts.trans (List.Perm.of_eq ?_)⟩
  decide +kernel

end Dispatch

end KvServer
