import SplitBuild.Manifest.Fragment
import SplitBuild.Proofs.Keyed
import SplitBuild.Proofs.Path.Segments
import SplitBuild.Proofs.Text.ByteOrder
import Mathlib.Data.List.Induction
import Mathlib.Data.List.Perm.Basic
/-!
# Fragments that are declared

A table of fragments is built by calls, each of which adds a file. What a
file declares is read off its text: a component is named by the directory
and a name in it, no two names of a file name one component
(`Path.join_injective`), and of the values under a name the last counts.
One call extends both maps of the builder by what its file declares, or
neither (`Tracks.addTo`); by induction over the calls the maps hold the last
fragment of each component and the files that declare it (`tracks_build`).
So **a table has all fragments or is refused with the components that two
calls declare** (`build_keeps_declarations`).
-/

namespace SplitBuild

open Json

/-! ## Fragment files -/

/-- A fragment file, as a call adds it: its directory, its name in reports,
and what it holds. -/
structure FragmentFile where
  directory : String
  name : String
  contents : String

namespace FragmentFile

/-- The fragments that are written in a file, each under its name in the
file. A name may repeat. A file that is no object of fragments has none. -/
def written? (f : FragmentFile) : Option (List (String × Fragment)) :=
  match Document.read? f.contents with
  | some (.object entries) => entries.mapM fun e => do
    let name ← e.1
    let fragment ← Fragment.ofDocument? e.2
    return (name, fragment)
  | _ => none

/-- The fragments that are written in a file, by component. -/
def entries (f : FragmentFile) : List (String × Fragment) :=
  (f.written?.getD []).map fun e => (Path.join f.directory e.1, e.2)

/-- The fragment that a file declares for a component: the last that is
written for it. -/
def fragment? (f : FragmentFile) (component : String) : Option Fragment :=
  (f.entries.reverse.find? fun e => e.1 = component).map (·.2)

/-- A file declares a component. -/
def declares (f : FragmentFile) (component : String) : Bool := (f.fragment? component).isSome

/-- The call that adds a file. -/
def addTo (f : FragmentFile) (b : FragmentTable.Builder) :
    Except Failure Unit × FragmentTable.Builder := b.addFile f.directory f.name f.contents

/-- The declarations of a file. -/
def declarations (f : FragmentFile) : List Declaration :=
  (Keyed.ofList f.entries).map fun e => ⟨e.1, f.name, e.2⟩

variable {f : FragmentFile} {written : List (String × Fragment)} {c : String}

theorem get?_ofList_entries (f : FragmentFile) (c : String) :
    Keyed.get? (Keyed.ofList f.entries) c = f.fragment? c := by
  rw [Keyed.get?_ofList, Keyed.get?_eq_find?, fragment?]

theorem read?_bind_entries? (f : FragmentFile) :
    (Document.read? f.contents).bind (Document.entries? Fragment.ofDocument?) =
      f.written?.map Keyed.ofList := by
  rw [written?]
  cases Document.read? f.contents with
  | none => rfl
  | some d => cases d <;> rfl

/-- A file that is an object of fragments gives its declarations. -/
theorem ofFile_of_written? (h : f.written? = some written) :
    Declaration.ofFile f.directory f.name f.contents = .ok f.declarations := by
  rw [Declaration.ofFile, read?_bind_entries?, h, Option.map_some]
  dsimp only
  -- the file is read by its own names; components may be named first, as no two names make one
  rw [declarations, entries, h, Option.getD_some,
    Keyed.ofList_map_key (Path.join_injective f.directory), List.map_map]
  rfl

/-- Another file is refused. -/
theorem ofFile_of_not_written? (h : f.written? = none) :
    Declaration.ofFile f.directory f.name f.contents =
      .error (.ofDiagnostic (Declaration.unreadableFile f.name)) := by
  rw [Declaration.ofFile, read?_bind_entries?, h, Option.map_none]

theorem addTo_of_written? (h : f.written? = some written) (b : FragmentTable.Builder) :
    f.addTo b = (.ok (), f.declarations.foldl FragmentTable.Builder.declare b) := by
  rw [addTo, FragmentTable.Builder.addFile, ofFile_of_written? h]

theorem addTo_of_not_written? (h : f.written? = none) (b : FragmentTable.Builder) :
    f.addTo b = (.error (.ofDiagnostic (Declaration.unreadableFile f.name)), b) := by
  rw [addTo, FragmentTable.Builder.addFile, ofFile_of_not_written? h]

/-- What a call leaves is the builder with the declarations of its file. -/
theorem addTo_snd (f : FragmentFile) (b : FragmentTable.Builder) :
    (f.addTo b).2 = f.declarations.foldl FragmentTable.Builder.declare b := by
  cases h : f.written? with
  | some written => rw [addTo_of_written? h]
  | none =>
    have hnone : f.declarations = [] := by
      rw [declarations, entries, h]
      rfl
    rw [addTo_of_not_written? h, hnone, List.foldl_nil]

/-- A file declares a component once. -/
theorem files_of_declarations (f : FragmentFile) (c : String) :
    (f.declarations.filter fun d => d.component = c).map (·.file) =
      if f.declares c then [f.name] else [] := by
  have hfilter := Keyed.filter_eq_of_nodup (Keyed.nodup_keys_ofList f.entries) c
  rw [get?_ofList_entries] at hfilter
  rw [declarations, List.filter_map, List.map_map, declares]
  change ((Keyed.ofList f.entries).filter fun e => e.1 = c).map _ = _
  rw [hfilter]
  cases f.fragment? c <;> rfl

end FragmentFile

namespace FragmentTable

/-! ## Declarations in turn -/

namespace Builder

variable {b : Builder} {files : List FragmentFile} {c : String}

theorem fragments_foldl_declare (b : Builder) (declarations : List Declaration) (c : String) :
    (declarations.foldl declare b).fragments[c]? =
      (Keyed.get? (Keyed.ofList (declarations.map fun d => (d.component, d.fragment))) c).or
        b.fragments[c]? := by
  rw [← Keyed.getElem?_foldl_insert, List.foldl_map]
  congr 1
  induction declarations generalizing b with
  | nil => rfl
  | cons d ds ih => exact ih (b.declare d)

theorem declaredIn_declare (b : Builder) (d : Declaration) (c : String) :
    ((b.declare d).declaredIn[c]?).getD [] = (b.declaredIn[c]?).getD [] ++
      if d.component = c then [d.file] else [] := by
  rw [declare, Std.ExtTreeMap.getElem?_insert]
  simp only [Std.compare_eq_iff_eq]
  split_ifs with h
  · rw [h, Option.getD_some]
  · rw [List.append_nil]

theorem declaredIn_foldl_declare (b : Builder) (declarations : List Declaration) (c : String) :
    ((declarations.foldl declare b).declaredIn[c]?).getD [] = (b.declaredIn[c]?).getD [] ++
      (declarations.filter fun d => d.component = c).map (·.file) := by
  induction declarations generalizing b with
  | nil => rw [List.foldl_nil, List.filter_nil, List.map_nil, List.append_nil]
  | cons d ds ih =>
    rw [List.foldl_cons, ih, declaredIn_declare, List.filter_cons, List.append_assoc]
    congr 1
    by_cases h : d.component = c <;> simp [h]

end Builder

/-! ## Calls in turn -/

/-- The builder after the calls that add some files. -/
def build (files : List FragmentFile) : Builder :=
  files.foldl (fun b f => (f.addTo b).2) .empty

/-- The files that declare a component, in the order of the calls. -/
def declaring (files : List FragmentFile) (c : String) : List String :=
  (files.filter (·.declares c)).map (·.name)

/-- Two of the calls declare a component. -/
def DeclaredTwice (files : List FragmentFile) (c : String) : Prop :=
  ∃ f g, [f, g].Sublist files ∧ f.declares c ∧ g.declares c

/-- Both maps of a builder are those of the calls that were made: the
fragment that was declared last, and the files that declare. -/
structure Builder.Tracks (b : Builder) (files : List FragmentFile) : Prop where
  fragments : ∀ c, b.fragments[c]? = files.reverse.findSome? (·.fragment? c)
  declaredIn : ∀ c, (b.declaredIn[c]?).getD [] = declaring files c

namespace Builder

variable {b : Builder} {files : List FragmentFile} {f : FragmentFile} {c : String}

theorem tracks_empty : empty.Tracks [] where
  fragments _ := Std.ExtTreeMap.getElem?_empty
  declaredIn c := congrArg (Option.getD · []) (Std.ExtTreeMap.getElem?_empty (a := c))

/-- **One call adds what its file declares to both maps**, which is nothing
where the file cannot be read. -/
theorem Tracks.addTo (h : b.Tracks files) (f : FragmentFile) :
    (f.addTo b).2.Tracks (files ++ [f]) where
  fragments c := by
    -- what the file declares stands before all that was declared earlier
    have hpairs : f.declarations.map (fun d => (d.component, d.fragment)) =
        Keyed.ofList f.entries := by
      rw [FragmentFile.declarations, List.map_map]
      exact List.map_id _
    rw [f.addTo_snd, fragments_foldl_declare, hpairs,
      Keyed.ofList_eq_self (Keyed.nodup_keys_ofList _), f.get?_ofList_entries, h.fragments,
      List.reverse_concat, List.findSome?_cons]
    cases f.fragment? c <;> rfl
  declaredIn c := by
    rw [f.addTo_snd, declaredIn_foldl_declare, f.files_of_declarations, h.declaredIn, declaring,
      declaring, List.filter_append, List.map_append, List.filter_singleton]
    cases f.declares c <;> rfl

/-- A component stands among the duplicates with the files that declare it,
where these are several. -/
theorem Tracks.mem_duplicates (h : b.Tracks files) {names : List String} :
    (c, names) ∈ b.duplicates ↔ names = declaring files c ∧ 1 < names.length := by
  rw [duplicates, List.mem_filter, Std.ExtTreeMap.mem_toList_iff_getElem?_eq_some, ← h.declaredIn,
    decide_eq_true_eq]
  -- a list of several files is not the empty one that stands for none
  refine and_congr_left fun hlength => ?_
  cases b.declaredIn[c]? with
  | none =>
    refine iff_of_false nofun ?_
    rintro rfl
    exact absurd hlength (by simp)
  | some held => rw [Option.getD_some, Option.some.injEq, eq_comm]

/-- The duplicates stand in the order of the bytes of the components. -/
theorem duplicates_pairwise (b : Builder) :
    (b.duplicates.map (·.1)).Pairwise fun i j => Text.bytes i < Text.bytes j :=
  List.pairwise_map.2 ((toList_pairwise_bytes b.declaredIn).filter _)

theorem finish_eq_ok_iff {table : FragmentTable} :
    b.finish = .ok table ↔ b.duplicates = [] ∧ b.fragments = table := by
  rw [finish]
  split
  · rename_i h
    rw [Except.ok.injEq, and_iff_right h]
  · rename_i h
    exact iff_of_false nofun fun hnil => h hnil.1

theorem finish_eq_error_iff {d : Diagnostic} :
    b.finish = .error d ↔ b.duplicates ≠ [] ∧ duplicateDeclaration b.duplicates = d := by
  rw [finish]
  split
  · rename_i h
    exact iff_of_false nofun fun hne => hne.1 h
  · rename_i h
    rw [Except.error.injEq, and_iff_right h]

end Builder

/-- **After any calls the maps are those of the calls.** -/
theorem tracks_build (files : List FragmentFile) : (build files).Tracks files := by
  induction files using List.reverseRecOn with
  | nil => exact Builder.tracks_empty
  | append_singleton files f ih =>
    rw [build, List.foldl_append]
    exact ih.addTo f

/-- What calls build is the table of the declarations of their files. -/
theorem finish_build (files : List FragmentFile) :
    (build files).finish = ofDeclarations (files.flatMap (·.declarations)) := by
  rw [ofDeclarations, List.foldl_flatMap, build]
  simp only [FragmentFile.addTo_snd]

/-! ## Components that are declared twice -/

variable {files others : List FragmentFile} {f g : FragmentFile} {c : String}

theorem declaredTwice_iff :
    DeclaredTwice files c ↔ 1 < (files.filter (·.declares c)).length := by
  constructor
  · rintro ⟨f, g, hsub, hf, hg⟩
    have hboth : [f, g].filter (·.declares c) = [f, g] := by simp [hf, hg]
    have hfilter := hsub.filter (·.declares c)
    rw [hboth] at hfilter
    exact hfilter.length_le
  · intro h
    match hfilter : files.filter (·.declares c) with
    | [] | [_] =>
      rw [hfilter] at h
      exact absurd h (by simp)
    | f :: g :: rest =>
      have hdeclares (x : FragmentFile) (hx : x ∈ f :: g :: rest) : x.declares c := by
        rw [← hfilter] at hx
        exact (List.mem_filter.1 hx).2
      refine ⟨f, g, List.Sublist.trans ?_ (hfilter ▸ List.filter_sublist), ?_, ?_⟩
      · exact ((List.nil_sublist rest).cons_cons g).cons_cons f
      · exact hdeclares f List.mem_cons_self
      · exact hdeclares g (List.mem_cons_of_mem _ List.mem_cons_self)

theorem DeclaredTwice.perm (h : DeclaredTwice files c) (hperm : others.Perm files) :
    DeclaredTwice others c := by
  rw [declaredTwice_iff] at h ⊢
  rwa [(hperm.filter _).length_eq]

/-- Two files that declare a component are one, where it is declared once. -/
theorem eq_of_not_declaredTwice (h : ¬ DeclaredTwice files c) (hf : f ∈ files) (hg : g ∈ files)
    (hcf : f.declares c) (hcg : g.declares c) : f = g := by
  rw [declaredTwice_iff, Nat.not_lt] at h
  have hmem (x : FragmentFile) (hx : x ∈ files) (hc : x.declares c) :
      x ∈ files.filter (·.declares c) := List.mem_filter.2 ⟨hx, hc⟩
  match hfilter : files.filter (·.declares c) with
  | [] => exact absurd (hfilter ▸ hmem f hf hcf) List.not_mem_nil
  | [x] =>
    have hfx := List.mem_singleton.1 (hfilter ▸ hmem f hf hcf)
    have hgx := List.mem_singleton.1 (hfilter ▸ hmem g hg hcg)
    exact hfx.trans hgx.symm
  | _ :: _ :: _ =>
    rw [hfilter] at h
    exact absurd h (by simp)

/-- The duplicates are the components that are declared twice. -/
theorem mem_map_duplicates_iff :
    c ∈ (build files).duplicates.map (·.1) ↔ DeclaredTwice files c := by
  rw [List.mem_map, declaredTwice_iff]
  constructor
  · rintro ⟨⟨_, names⟩, hmem, rfl⟩
    obtain ⟨rfl, hlength⟩ := (tracks_build files).mem_duplicates.1 hmem
    rwa [declaring, List.length_map] at hlength
  · intro h
    refine ⟨(c, declaring files c), (tracks_build files).mem_duplicates.2 ⟨rfl, ?_⟩, rfl⟩
    rwa [declaring, List.length_map]

theorem duplicates_eq_nil_iff :
    (build files).duplicates = [] ↔ ∀ c, ¬ DeclaredTwice files c := by
  rw [← List.map_eq_nil_iff, List.eq_nil_iff_forall_not_mem]
  exact forall_congr' fun c => not_congr mem_map_duplicates_iff

/-- Where no component is declared twice a fragment is held exactly if it is
declared. -/
theorem getElem?_fragments_build (h : ∀ c, ¬ DeclaredTwice files c) {v : Fragment} :
    (build files).fragments[c]? = some v ↔ ∃ f ∈ files, f.fragment? c = some v := by
  rw [(tracks_build files).fragments]
  constructor
  · intro hv
    obtain ⟨f, hf, hfv⟩ := List.exists_of_findSome?_eq_some hv
    exact ⟨f, List.mem_reverse.1 hf, hfv⟩
  · rintro ⟨f, hf, hfv⟩
    have hdeclares : f.declares c := by rw [FragmentFile.declares, hfv]; rfl
    cases hlast : files.reverse.findSome? (·.fragment? c) with
    | none =>
      have hnone := List.findSome?_eq_none_iff.1 hlast f (List.mem_reverse.2 hf)
      rw [hfv] at hnone
      cases hnone
    | some w =>
      -- the last call that declares the component is the only one
      obtain ⟨g, hg, hgw⟩ := List.exists_of_findSome?_eq_some hlast
      have hgdeclares : g.declares c := by rw [FragmentFile.declares, hgw]; rfl
      obtain rfl := eq_of_not_declaredTwice (h c) hf (List.mem_reverse.1 hg) hdeclares hgdeclares
      rw [← hgw, hfv]

/-! ## The outcome -/

/-- A diagnostic tells the components that two of the calls declare, in the
order of their bytes, and for each the files that declare it, in the order of
the calls. -/
structure ReportsDuplicates (files : List FragmentFile) (d : Diagnostic) : Prop where
  kind : d.kind = .duplicateFragment
  message : d.message = "Duplicate component defined in async.component.json: " ++
    ", ".intercalate (d.subjects.map fun c => "\"" ++ c ++ "\"")
  subjects : ∀ c, c ∈ d.subjects ↔ DeclaredTwice files c
  ordered : d.subjects.Pairwise fun i j => Text.bytes i < Text.bytes j
  hints : d.hints = d.subjects.map fun c =>
    c ++ " is declared in " ++ ", ".intercalate (declaring files c)

theorem reportsDuplicates_build (files : List FragmentFile) :
    ReportsDuplicates files (duplicateDeclaration (build files).duplicates) where
  kind := rfl
  message := by
    rw [duplicateDeclaration, List.map_map]
    rfl
  subjects _ := mem_map_duplicates_iff
  ordered := (build files).duplicates_pairwise
  hints := by
    rw [duplicateDeclaration, List.map_map]
    refine List.map_congr_left ?_
    rintro ⟨c, names⟩ hmem
    obtain ⟨rfl, -⟩ := (tracks_build files).mem_duplicates.1 hmem
    rfl

/-- **Fragments are neither lost nor silently merged.** A call whose file
cannot be read says so and leaves the builder as it was; any other succeeds.
The table is finished exactly if no two of the calls declare one component.
Then it holds what the files declare and nothing else, in whatever order the
calls were made; and if it is refused, it is with the components that are
declared twice. -/
theorem build_keeps_declarations (files : List FragmentFile) :
    (∀ f : FragmentFile, f.written? = none → f.addTo (build files) =
      (.error (.ofDiagnostic (Declaration.unreadableFile f.name)), build files)) ∧
    (∀ f : FragmentFile, f.written? ≠ none → (f.addTo (build files)).1 = .ok ()) ∧
    ((∃ table, (build files).finish = .ok table) ↔ ∀ c, ¬ DeclaredTwice files c) ∧
    (∀ table, (build files).finish = .ok table →
      (∀ c v, table[c]? = some v ↔ ∃ f ∈ files, f.fragment? c = some v) ∧
      ∀ others, others.Perm files → (build others).finish = .ok table) ∧
    ∀ d, (build files).finish = .error d → ReportsDuplicates files d := by
  refine ⟨fun f h => f.addTo_of_not_written? h _, fun f h => ?_, ?_, fun table h => ?_,
    fun d h => ?_⟩
  · obtain ⟨written, hwritten⟩ := Option.ne_none_iff_exists'.1 h
    rw [f.addTo_of_written? hwritten]
  · simp only [Builder.finish_eq_ok_iff, exists_eq_right']
    exact duplicates_eq_nil_iff
  · obtain ⟨hnil, rfl⟩ := Builder.finish_eq_ok_iff.1 h
    have honce := duplicates_eq_nil_iff.1 hnil
    refine ⟨fun c v => getElem?_fragments_build honce, fun others hperm => ?_⟩
    have honce' : ∀ c, ¬ DeclaredTwice others c :=
      fun c htwice => honce c (htwice.perm hperm.symm)
    refine Builder.finish_eq_ok_iff.2 ⟨duplicates_eq_nil_iff.2 honce', ?_⟩
    refine Std.ExtTreeMap.ext_getElem? fun c => Option.ext fun v => ?_
    rw [getElem?_fragments_build honce, getElem?_fragments_build honce']
    exact exists_congr fun f => and_congr_left' hperm.mem_iff
  · obtain ⟨-, rfl⟩ := Builder.finish_eq_error_iff.1 h
    exact reportsDuplicates_build files

/-- A component may be named from two directories. -/
example : declaring [⟨"a", "a/async.component.json", "\x7b\"b/c\": \x7b\x7d\x7d"⟩,
    ⟨"a/b", "a/b/async.component.json", "\x7b\"c\": \x7b\x7d\x7d"⟩] "a/b/c" =
    ["a/async.component.json", "a/b/async.component.json"] := by decide +kernel

end FragmentTable

end SplitBuild
