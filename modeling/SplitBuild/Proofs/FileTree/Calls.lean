import SplitBuild.Proofs.FileTree.Entries
import Mathlib.Data.List.Induction
/-!
# File trees over whole runs

A tree is made by calls, each of which writes a file, makes a directory or
enters another one. A call touches the location it is made at and the
locations above. What one call leaves is the step (`get?_apply`), and by
induction over the calls what stands at a location is what the last call
that touched it left (`get?_run`). So **a run of calls holds at each
location what was last done to it**, and every reading operation answers
by it (`run_holds_last_touch`).
-/

namespace SplitBuild

namespace FileTree

/-! ## Calls -/

/-- An operation that changes a tree or its current directory. -/
inductive Call where
  | write (p : FilePath) (contents : ByteArray)
  | createDirectories (p : FilePath)
  | enter (p : FilePath)

namespace Call

/-- The tree after a call. -/
def apply (t : FileTree) : Call → FileTree
  | write p contents => t.write p contents
  | createDirectories p => t.createDirectories p
  | enter p => t.enter p

/-- The location that a call is made at, as the tree is; entering a directory
is made nowhere. -/
def target? (t : FileTree) : Call → Option Location
  | write p _ => some (t.locate p)
  | createDirectories p => some (t.locate p)
  | enter _ => none

/-- A call touches its target and what lies above it. -/
def touches (t : FileTree) (call : Call) (q : Location) : Bool :=
  (call.target? t).any fun l => q = l ∨ q ∈ l.ancestors

/-- What a call leaves at a location. -/
def leaves? (t : FileTree) (q : Location) : Call → Option FileEntry
  | write p contents =>
    if q = t.locate p then some (.file contents)
    else if q ∈ (t.locate p).ancestors then some .directory else none
  | createDirectories p =>
    if q = t.locate p ∨ q ∈ (t.locate p).ancestors then some .directory else none
  | enter _ => none

end Call

/-- The tree after some calls on an empty one. -/
def run (calls : List Call) : FileTree := calls.foldl Call.apply empty

/-- Some calls, each with the tree that it is made on. -/
def timeline : FileTree → List Call → List (FileTree × Call)
  | _, [] => []
  | t, call :: calls => (t, call) :: timeline (call.apply t) calls

/-- The last of some calls that touches a location, with the tree that it is
made on. -/
def lastTouch? (calls : List Call) (q : Location) : Option (FileTree × Call) :=
  (timeline empty calls).reverse.find? fun e => e.2.touches e.1 q

variable {t : FileTree} {calls : List Call} {call : Call} {p : FilePath} {q : Location}
variable {contents : ByteArray}

/-! ## One call -/

theorem get?_write (t : FileTree) (p : FilePath) (contents : ByteArray) (q : Location) :
    (t.write p contents).get? q = ((Call.write p contents).leaves? t q).or (t.get? q) := by
  rw [write, get?_withFile, Call.leaves?]
  split_ifs <;> rfl

theorem get?_createDirectories (t : FileTree) (p : FilePath) (q : Location) :
    (t.createDirectories p).get? q = ((Call.createDirectories p).leaves? t q).or (t.get? q) := by
  rw [createDirectories, get?_withDirectories, Call.leaves?]
  simp only [List.mem_cons]
  split_ifs <;> rfl

/-- **A call leaves what it leaves, and all else as it was.** -/
theorem get?_apply (t : FileTree) (call : Call) (q : Location) :
    (call.apply t).get? q = (call.leaves? t q).or (t.get? q) := by
  cases call with
  | write p contents => exact get?_write t p contents q
  | createDirectories p => exact get?_createDirectories t p q
  | enter p => rfl

/-- A call leaves something where it touches, and nothing elsewhere. -/
theorem isSome_leaves?_iff : (call.leaves? t q).isSome ↔ call.touches t q := by
  cases call with
  | write p contents =>
    simp only [Call.leaves?, Call.touches, Call.target?, Option.any_some, decide_eq_true_eq]
    split_ifs with hq habove
    · exact iff_of_true rfl (.inl hq)
    · exact iff_of_true rfl (.inr habove)
    · exact iff_of_false nofun (not_or.2 ⟨hq, habove⟩)
  | createDirectories p =>
    simp only [Call.leaves?, Call.touches, Call.target?, Option.any_some, decide_eq_true_eq]
    split_ifs with hq
    · exact iff_of_true rfl hq
    · exact iff_of_false nofun hq
  | enter p => exact iff_of_false nofun nofun

/-- A file is left where it is written. -/
theorem leaves?_eq_file_iff : call.leaves? t q = some (.file contents) ↔
    ∃ p, call = .write p contents ∧ t.locate p = q := by
  constructor
  · intro h
    cases call with
    | write p c =>
      rw [Call.leaves?] at h
      split_ifs at h with hq habove
      · obtain rfl := FileEntry.file.inj (Option.some.inj h)
        exact ⟨p, rfl, hq.symm⟩
      · cases h
    | createDirectories p =>
      rw [Call.leaves?] at h
      split_ifs at h
      cases h
    | enter p => cases h
  · rintro ⟨p, rfl, rfl⟩
    exact if_pos rfl

/-- A directory is left above what is written, and where directories are
made. -/
theorem leaves?_eq_directory_iff (h : call.touches t q) : call.leaves? t q = some .directory ↔
    (∃ p, call = .createDirectories p) ∨
      ∃ p contents, call = .write p contents ∧ q ∈ (t.locate p).ancestors := by
  constructor
  · intro hleaves
    cases call with
    | write p c =>
      rw [Call.leaves?] at hleaves
      split_ifs at hleaves with hq habove
      · cases hleaves
      · exact .inr ⟨p, c, rfl, habove⟩
    | createDirectories p => exact .inl ⟨p, rfl⟩
    | enter p => cases hleaves
  · rintro (⟨p, rfl⟩ | ⟨p, c, rfl, habove⟩)
    · exact if_pos (of_decide_eq_true h)
    · have hne : q ≠ t.locate p := by
        rintro rfl
        exact Location.not_mem_ancestors_self _ habove
      rw [Call.leaves?, if_neg hne, if_pos habove]

theorem WellFormed.apply (h : t.WellFormed) (call : Call) : (call.apply t).WellFormed := by
  cases call with
  | write p contents => exact h.withFile (h.locate p) contents
  | createDirectories p =>
    refine h.withDirectories fun l hl => ?_
    rcases List.mem_cons.1 hl with rfl | hl
    · exact h.locate p
    · exact (h.locate p).initial (Location.prefix_of_mem_ancestors hl)
  | enter p => exact h.enter p

/-! ## Runs of calls -/

theorem run_concat (calls : List Call) (call : Call) :
    run (calls ++ [call]) = call.apply (run calls) := by
  rw [run, List.foldl_append]
  rfl

theorem timeline_append (t : FileTree) (calls later : List Call) :
    timeline t (calls ++ later) =
      timeline t calls ++ timeline (calls.foldl Call.apply t) later := by
  induction calls generalizing t with
  | nil => rfl
  | cons call calls ih => rw [List.cons_append, timeline, ih, timeline, List.cons_append]; rfl

/-- A later call that touches a location comes last, and one that does not is
passed over. -/
theorem lastTouch?_concat (calls : List Call) (call : Call) (q : Location) :
    lastTouch? (calls ++ [call]) q =
      if call.touches (run calls) q then some (run calls, call) else lastTouch? calls q := by
  have hlast : timeline empty (calls ++ [call]) = timeline empty calls ++ [(run calls, call)] :=
    timeline_append empty calls [call]
  rw [lastTouch?, hlast, List.reverse_concat, List.find?_cons]
  by_cases h : call.touches (run calls) q
  · rw [if_pos h]
    simp only [h]
  · rw [if_neg h]
    simp only [h]
    rfl

theorem wellFormed_run (calls : List Call) : (run calls).WellFormed := by
  induction calls using List.reverseRecOn with
  | nil => exact wellFormed_empty
  | append_singleton calls call ih => exact run_concat calls call ▸ ih.apply call

/-- **After some calls there stands what the last that touched the place has
left.** -/
theorem get?_run (calls : List Call) (q : Location) :
    (run calls).get? q = (lastTouch? calls q).bind fun e => e.2.leaves? e.1 q := by
  induction calls using List.reverseRecOn with
  | nil => exact Std.ExtTreeMap.getElem?_empty
  | append_singleton calls call ih =>
    -- the new call either touches the place and is the last to do so, or leaves nothing there
    rw [run_concat, get?_apply, lastTouch?_concat, ih]
    by_cases h : call.touches (run calls) q
    · obtain ⟨entry, hentry⟩ := Option.isSome_iff_exists.1 (isSome_leaves?_iff.2 h)
      rw [if_pos h, Option.bind_some, hentry, Option.some_or]
    · have hnone : call.leaves? (run calls) q = none :=
        Option.not_isSome_iff_eq_none.1 (mt isSome_leaves?_iff.1 h)
      rw [if_neg h, hnone, Option.none_or]

/-- What is found last touches the place. -/
theorem touches_of_lastTouch? (h : lastTouch? calls q = some (t, call)) : call.touches t q := by
  have hfound := List.find?_some h
  exact hfound

/-- Nothing is found where nothing touches the place. -/
theorem lastTouch?_eq_none_iff :
    lastTouch? calls q = none ↔ ∀ e ∈ timeline empty calls, ¬ e.2.touches e.1 q := by
  rw [lastTouch?, List.find?_eq_none]
  simp only [List.mem_reverse]

/-- What stands at a location stands there by a call that touched it. -/
theorem get?_run_eq_some_iff {entry : FileEntry} : (run calls).get? q = some entry ↔
    ∃ t call, lastTouch? calls q = some (t, call) ∧ call.leaves? t q = some entry := by
  rw [get?_run, Option.bind_eq_some_iff]
  exact ⟨fun ⟨e, hlast, hleaves⟩ => ⟨e.1, e.2, hlast, hleaves⟩,
    fun ⟨t, call, hlast, hleaves⟩ => ⟨(t, call), hlast, hleaves⟩⟩

/-- Nothing stands at a location that no call touched. -/
theorem get?_run_eq_none_iff : (run calls).get? q = none ↔ lastTouch? calls q = none := by
  rw [get?_run, Option.bind_eq_none_iff]
  refine ⟨fun h => ?_, fun h e hlast => absurd (h.symm.trans hlast) nofun⟩
  refine Option.eq_none_iff_forall_ne_some.2 fun e hlast => ?_
  have hleaves := isSome_leaves?_iff.2 (touches_of_lastTouch? hlast)
  rw [h e hlast] at hleaves
  cases hleaves

/-! ## What is read -/

/-- Contents are read as a text where they are that text in UTF-8. -/
theorem textOf_eq_ok_iff {text : String} :
    FileStore.textOf contents = .ok text ↔ contents = text.toUTF8 := by
  unfold FileStore.textOf String.fromUTF8?
  by_cases hvalid : contents.IsValidUTF8
  · rw [dif_pos hvalid]
    constructor
    · intro h
      exact congrArg String.toByteArray (Except.ok.inj h)
    · rintro rfl
      rfl
  · rw [dif_neg hvalid]
    refine iff_of_false nofun ?_
    rintro rfl
    exact hvalid text.isValidUTF8

/-- Contents that are no text are said to be none. -/
theorem textOf_eq_error_iff {fault : FileFault} : FileStore.textOf contents = .error fault ↔
    fault = .notText ∧ ∀ text : String, contents ≠ text.toUTF8 := by
  cases h : FileStore.textOf contents with
  | ok text => exact iff_of_false nofun fun hnone => hnone.2 text (textOf_eq_ok_iff.1 h)
  | error other =>
    have hnone : ∀ text : String, contents ≠ text.toUTF8 := by
      intro text htext
      rw [textOf_eq_ok_iff.2 htext] at h
      cases h
    have hother : other = .notText := by
      unfold FileStore.textOf at h
      split at h
      · cases h
      · exact (Except.error.inj h).symm
    rw [hother, and_iff_left hnone, Except.error.injEq, eq_comm]

theorem readText_run (t : FileTree) (p : FilePath) :
    (FileStore.readText p : StateM FileTree _).run t = ((t.read p).bind FileStore.textOf, t) := rfl

/-- A text is read where a file stands that holds it. -/
theorem readText_run_eq_ok_iff (t : FileTree) (p : FilePath) {text : String} :
    (FileStore.readText p : StateM FileTree _).run t = (.ok text, t) ↔
      t.get? (t.locate p) = some (.file text.toUTF8) := by
  rw [readText_run, Prod.mk.injEq, and_iff_left rfl]
  unfold read
  cases t.get? (t.locate p) with
  | none => exact iff_of_false nofun nofun
  | some entry =>
    cases entry with
    | directory => exact iff_of_false nofun nofun
    | file contents =>
      rw [Option.some.injEq, FileEntry.file.injEq]
      exact textOf_eq_ok_iff

/-- The operations on a path that change nothing answer by what stands at its
location. -/
structure Answers (t : FileTree) (p : FilePath) : Prop where
  read_ok : ∀ contents, t.read p = .ok contents ↔ t.get? (t.locate p) = some (.file contents)
  read_isDirectory : t.read p = .error .isDirectory ↔ t.get? (t.locate p) = some .directory
  read_noFile : t.read p = .error .noFile ↔ t.get? (t.locate p) = none
  isFile : t.isFile p ↔ ∃ contents, t.get? (t.locate p) = some (.file contents)
  readText_ok : ∀ text, (FileStore.readText p : StateM FileTree _).run t = (.ok text, t) ↔
    t.get? (t.locate p) = some (.file text.toUTF8)
  readText_error : ∀ fault, (FileStore.readText p : StateM FileTree _).run t = (.error fault, t) ↔
    t.read p = .error fault ∨ fault = .notText ∧ ∃ contents,
      t.get? (t.locate p) = some (.file contents) ∧ ∀ text : String, contents ≠ text.toUTF8
  walk_error : (∃ fault, t.walk p = .error fault) ↔ t.get? (t.locate p) ≠ some .directory
  walk_ok : ∀ paths, t.walk p = .ok paths → t.Lists (t.locate p) paths

theorem WellFormed.answers (ht : t.WellFormed) (p : FilePath) : t.Answers p where
  read_ok contents := by
    unfold read
    cases t.get? (t.locate p) with
    | none => exact iff_of_false nofun nofun
    | some entry => cases entry <;> simp
  read_isDirectory := by
    unfold read
    cases t.get? (t.locate p) with
    | none => exact iff_of_false nofun nofun
    | some entry => cases entry <;> simp
  read_noFile := by
    unfold read
    cases t.get? (t.locate p) with
    | none => exact iff_of_true rfl rfl
    | some entry => cases entry <;> simp
  isFile := by
    unfold isFile
    cases t.get? (t.locate p) with
    | none => simp
    | some entry => cases entry <;> simp
  readText_ok text := readText_run_eq_ok_iff t p
  readText_error fault := by
    rw [readText_run, Prod.mk.injEq, and_iff_left rfl]
    unfold read
    cases t.get? (t.locate p) with
    | none => simp [Except.bind]
    | some entry =>
      cases entry with
      | directory => simp [Except.bind]
      | file contents => simp [Except.bind, textOf_eq_error_iff]
  walk_error := by
    by_cases h : t.get? (t.locate p) = some .directory
    · rw [walk_of_directory h]
      exact iff_of_false nofun fun hne => hne h
    · rw [walk_of_not_directory h]
      exact iff_of_true ⟨.noDirectory, rfl⟩ h
  walk_ok paths := lists_of_walk ht

/-! ## The law of a run -/

/-- **After a run of calls each location holds what was last done to it.** A
file with some contents stands where the last call that touched the place
wrote these contents there; a directory where that call made directories, or
wrote below the place; and nothing where no call touched. Reading, asking for
a file, and walking answer by what stands there. -/
theorem run_holds_last_touch (calls : List Call) :
    (∀ q contents, (run calls).get? q = some (.file contents) ↔
      ∃ t p, lastTouch? calls q = some (t, .write p contents) ∧ t.locate p = q) ∧
    (∀ q, (run calls).get? q = some .directory ↔
      ∃ t call, lastTouch? calls q = some (t, call) ∧ ((∃ p, call = .createDirectories p) ∨
        ∃ p contents, call = .write p contents ∧ q ∈ (t.locate p).ancestors)) ∧
    (∀ q, (run calls).get? q = none ↔ ∀ e ∈ timeline empty calls, ¬ e.2.touches e.1 q) ∧
    ∀ p, (run calls).Answers p := by
  refine ⟨fun q contents => ?_, fun q => ?_, fun q => ?_, (wellFormed_run calls).answers⟩
  · rw [get?_run_eq_some_iff]
    constructor
    · rintro ⟨t, call, hlast, hleaves⟩
      obtain ⟨p, rfl, hp⟩ := leaves?_eq_file_iff.1 hleaves
      exact ⟨t, p, hlast, hp⟩
    · rintro ⟨t, p, hlast, hp⟩
      exact ⟨t, .write p contents, hlast, leaves?_eq_file_iff.2 ⟨p, rfl, hp⟩⟩
  · rw [get?_run_eq_some_iff]
    refine exists_congr fun t => exists_congr fun call => and_congr_right fun hlast => ?_
    exact leaves?_eq_directory_iff (touches_of_lastTouch? hlast)
  · rw [get?_run_eq_none_iff, lastTouch?_eq_none_iff]

end FileTree

end SplitBuild
