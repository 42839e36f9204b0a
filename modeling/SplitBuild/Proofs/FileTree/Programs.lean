import SplitBuild.FileTree
/-!
# Programs over a file tree

A program reads and writes files through the operations of a store, and
stops with a failure where one of them fails. It completes on a file tree
with a result and the tree that it leaves, or fails and leaves a tree too.
What a program completes with is put together from what its steps complete
with (`Completes.bind`), over lists as well (`completes_mapM`,
`completes_forM`); it fails where a step fails behind others that complete
(`Fails.bind`, `Completes.bind_fails`).
-/

namespace SplitBuild

namespace FileTree

variable {α β : Type} {t u v : FileTree} {a : α} {b : β}

/-- A program that starts with one tree completes with a result and leaves
another tree. -/
def Completes (t : FileTree) (program : ExceptT Failure (StateM FileTree) α) (a : α)
    (u : FileTree) : Prop := StateT.run (ExceptT.run program) t = (.ok a, u)

theorem completes_pure (a : α) (t : FileTree) : Completes t (pure a) a t := rfl

/-- A program that goes on with a result completes as what it goes on with. -/
theorem Completes.bind {program : ExceptT Failure (StateM FileTree) α}
    {next : α → ExceptT Failure (StateM FileTree) β} (h : Completes t program a u)
    (hnext : Completes u (next a) b v) : Completes t (program >>= next) b v := by
  unfold Completes at h ⊢
  rw [ExceptT.run_bind, StateT.run_bind, h]
  exact hnext

/-- An operation that succeeds is a step that completes. -/
theorem completes_orStop {operation : StateM FileTree (Except FileFault α)}
    {fail : FileFault → Failure} (h : operation.run t = (.ok a, u)) :
    Completes t (FileStore.orStop operation fail) a u := by
  unfold Completes FileStore.orStop
  rw [ExceptT.run_mk, StateT.run_bind, h]
  rfl

/-! Steps that fail. -/

/-- A program that starts with one tree fails and leaves another tree. -/
def Fails (t : FileTree) (program : ExceptT Failure (StateM FileTree) α) (f : Failure)
    (u : FileTree) : Prop := StateT.run (ExceptT.run program) t = (.error f, u)

theorem fails_throw (f : Failure) (t : FileTree) :
    Fails t (throw f : ExceptT Failure (StateM FileTree) α) f t := rfl

/-- A program that fails does not go on. -/
theorem Fails.bind {program : ExceptT Failure (StateM FileTree) α} {f : Failure}
    (h : Fails t program f u) (next : α → ExceptT Failure (StateM FileTree) β) :
    Fails t (program >>= next) f u := by
  unfold Fails at h ⊢
  rw [ExceptT.run_bind, StateT.run_bind, h]
  rfl

/-- A program that goes on with a result fails as what it goes on with. -/
theorem Completes.bind_fails {program : ExceptT Failure (StateM FileTree) α}
    {next : α → ExceptT Failure (StateM FileTree) β} {f : Failure} (h : Completes t program a u)
    (hnext : Fails u (next a) f v) : Fails t (program >>= next) f v := by
  unfold Completes at h
  unfold Fails at hnext ⊢
  rw [ExceptT.run_bind, StateT.run_bind, h]
  exact hnext

/-- An operation with a fault is a step that fails. -/
theorem fails_orStop {operation : StateM FileTree (Except FileFault α)} {fault : FileFault}
    (fail : FileFault → Failure) (h : operation.run t = (.error fault, u)) :
    Fails t (FileStore.orStop operation fail) (fail fault) u := by
  unfold Fails FileStore.orStop
  rw [ExceptT.run_mk, StateT.run_bind, h]
  rfl

/-- A program has one outcome. -/
theorem Completes.unique {program : ExceptT Failure (StateM FileTree) α} {a' : α} {u' : FileTree}
    (h : Completes t program a u) (h' : Completes t program a' u') : a = a' ∧ u = u' := by
  obtain ⟨hresult, htree⟩ := Prod.mk.inj (h.symm.trans h')
  exact ⟨Except.ok.inj hresult, htree⟩

theorem Fails.unique {program : ExceptT Failure (StateM FileTree) α} {f f' : Failure}
    {u' : FileTree} (h : Fails t program f u) (h' : Fails t program f' u') : f = f' ∧ u = u' := by
  obtain ⟨hresult, htree⟩ := Prod.mk.inj (h.symm.trans h')
  exact ⟨Except.error.inj hresult, htree⟩

theorem Fails.not_completes {program : ExceptT Failure (StateM FileTree) α} {f : Failure}
    (h : Fails t program f u) : ¬ Completes t program a v := fun h' =>
  nomatch (Prod.mk.inj (h.symm.trans h')).1

/-! The operations of a tree that cannot fail. -/

theorem completes_createDirectories (t : FileTree) (p : FilePath) (fail : FileFault → Failure) :
    Completes t (FileStore.orStop (FileStore.createDirectories p) fail) ()
      (t.createDirectories p) := completes_orStop rfl

theorem completes_write (t : FileTree) (p : FilePath) (contents : ByteArray)
    (fail : FileFault → Failure) :
    Completes t (FileStore.orStop (FileStore.write p contents) fail) () (t.write p contents) :=
  completes_orStop rfl

/-! Lists of steps. -/

theorem completes_mapM {l : List α} {f : α → ExceptT Failure (StateM FileTree) β} {g : α → β}
    (h : ∀ a ∈ l, Completes t (f a) (g a) t) : Completes t (l.mapM f) (l.map g) t := by
  induction l with
  | nil => exact completes_pure [] t
  | cons a l ih =>
    rw [List.mapM_cons]
    refine (h a List.mem_cons_self).bind ?_
    refine (ih fun b hb => h b (List.mem_cons_of_mem a hb)).bind ?_
    exact completes_pure (g a :: l.map g) t

/-- A program that is run for each item of a list goes through the trees that
its runs leave. -/
theorem completes_forM {l : List α} {f : α → ExceptT Failure (StateM FileTree) Unit}
    {next : FileTree → α → FileTree} (h : ∀ a ∈ l, ∀ t, Completes t (f a) () (next t a)) :
    Completes t (l.forM f) () (l.foldl next t) := by
  induction l generalizing t with
  | nil => exact completes_pure () t
  | cons a l ih =>
    exact (h a List.mem_cons_self t).bind (ih fun b hb => h b (List.mem_cons_of_mem a hb))

end FileTree

end SplitBuild
