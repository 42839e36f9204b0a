import SplitBuild.OutputDirectory
import SplitBuild.Proofs.AssetTable
import SplitBuild.Proofs.FileTree.Calls
import SplitBuild.Proofs.FileTree.Programs
import SplitBuild.Proofs.Keyed
import SplitBuild.Proofs.OutputDirectory.Places
/-!
# Loading and writing an output directory

Loading a directory of a file tree ends with a table of the files at the
places of plain names (`completes_load`, `getElem?_loaded_iff`). Writing
what another table changes puts files at the places of the changed assets
and directories above them (`completes_writeChanged`). Where no file lies
above anything else, these places lie apart from each other and from all
other files, so that nothing is lost (`get?_of_not_written`) and the tree
holds the other table (`loaded_stored`): **what is written to an output
directory is loaded from it again** (`written_then_loaded`).
-/

namespace SplitBuild

namespace OutputDirectory

open FileTree

variable {t : FileTree} {dist : FilePath} {name : String} {contents : ByteArray} {l : Location}

/-- A directory of a tree, by an absolute path that does not step back. -/
structure IsOutput (t : FileTree) (dist : FilePath) : Prop where
  straight : IsStraight dist
  directory : t.get? (t.locate dist) = some .directory

/-! ## Loading -/

/-- The assets in a directory, by the names that are read off their
locations. -/
def assetsWithin (t : FileTree) (dist : FilePath) : List (String × ByteArray) :=
  (t.filesWithin dist.components).map fun e =>
    ((FilePath.ofComponents (e.1.drop dist.components.length)).text, e.2)

/-- The table of the assets in a directory. -/
def loaded (t : FileTree) (dist : FilePath) : AssetTable := .ofList (assetsWithin t dist)

theorem text_drop_place (h : Path.IsPlain name) :
    (FilePath.ofComponents ((place dist name).drop dist.components.length)).text = name := by
  rw [place, List.drop_left, FilePath.ofComponents_named (names_of_isPlain h),
    Path.ofSegments_segments]

/-- A file below the directory has a place there. -/
theorem exists_place_of_file (ht : t.WellFormed) (hdist : IsOutput t dist)
    (hbelow : dist.components <+: l) (h : t.get? l = some (.file contents)) :
    ∃ name, Path.IsPlain name ∧ place dist name = l := by
  refine exists_place_eq hdist.straight (ht.entries (by rw [h]; nofun)) hbelow ?_
  rintro rfl
  have hdir := hdist.directory
  rw [locate_dist hdist.straight, h] at hdir
  cases hdir

/-- **The assets in a directory are the files at the places of plain
names.** -/
theorem mem_assetsWithin_iff (ht : t.WellFormed) (hdist : IsOutput t dist) :
    (name, contents) ∈ assetsWithin t dist ↔
      Path.IsPlain name ∧ t.get? (place dist name) = some (.file contents) := by
  rw [assetsWithin, List.mem_map]
  constructor
  · rintro ⟨⟨l, c⟩, hmem, heq⟩
    obtain ⟨hbelow, hfile⟩ := mem_filesWithin_iff.1 hmem
    obtain ⟨other, hplain, rfl⟩ := exists_place_of_file ht hdist hbelow hfile
    rw [text_drop_place hplain] at heq
    obtain ⟨rfl, rfl⟩ := Prod.mk.inj heq
    exact ⟨hplain, hfile⟩
  · rintro ⟨hplain, hfile⟩
    refine ⟨(place dist name, contents), mem_filesWithin_iff.2 ⟨List.prefix_append _ _, hfile⟩, ?_⟩
    rw [text_drop_place hplain]

/-- The table of the assets in a directory holds the files at the places of
plain names. -/
theorem getElem?_loaded_iff (ht : t.WellFormed) (hdist : IsOutput t dist) :
    (loaded t dist)[name]? = some contents ↔
      Path.IsPlain name ∧ t.get? (place dist name) = some (.file contents) := by
  rw [loaded, AssetTable.ofList, Keyed.getElem?_foldl_insert, Std.ExtTreeMap.getElem?_empty,
    Option.or_none]
  constructor
  · intro h
    exact (mem_assetsWithin_iff ht hdist).1 (Keyed.mem_of_mem_ofList (Keyed.mem_of_get? h))
  · intro h
    -- the name is there, and whatever is found under it is what the place holds
    have hkey : name ∈ Keyed.keys (assetsWithin t dist) :=
      List.mem_map.2 ⟨_, (mem_assetsWithin_iff ht hdist).2 h, rfl⟩
    obtain ⟨found, hfound⟩ := Option.isSome_iff_exists.1 (Keyed.isSome_get?_ofList_iff.2 hkey)
    obtain ⟨-, hplace⟩ :=
      (mem_assetsWithin_iff ht hdist).1 (Keyed.mem_of_mem_ofList (Keyed.mem_of_get? hfound))
    rw [hfound, ← FileEntry.file.inj (Option.some.inj (hplace.symm.trans h.2))]

/-- A file below the directory is loaded as the asset whose place it is. -/
theorem completes_loadAsset (hdist : IsStraight dist) (hplain : Path.IsPlain name)
    (h : t.get? (place dist name) = some (.file contents)) :
    Completes t (loadAsset dist (.ofComponents (place dist name))) (some (name, contents)) t := by
  have hlocate : t.locate (.ofComponents (place dist name)) = place dist name :=
    FilePath.resolve_ofComponents (isResolved_place hdist hplain) (head?_place hdist name) t.cwd
  have hread : t.read (.ofComponents (place dist name)) = .ok contents := by
    rw [FileTree.read, hlocate, h]
  rw [loadAsset, nameUnder?_place hdist hplain]
  refine (completes_orStop (a := contents) ?_).bind (completes_pure _ t)
  exact congrArg (·, t) hread

/-- **Loading a directory ends with the table of the assets in it.** -/
theorem completes_load (ht : t.WellFormed) (hdist : IsOutput t dist) :
    Completes t (load dist) (loaded t dist) t := by
  have hwalk := walk_of_directory hdist.directory
  rw [locate_dist hdist.straight] at hwalk
  have hassets : ∀ e ∈ t.filesWithin dist.components,
      Completes t (loadAsset dist (.ofComponents e.1))
        (some ((FilePath.ofComponents (e.1.drop dist.components.length)).text, e.2)) t := by
    intro e he
    obtain ⟨hbelow, hfile⟩ := mem_filesWithin_iff.1 he
    obtain ⟨name, hplain, hplace⟩ := exists_place_of_file ht hdist hbelow hfile
    rw [← hplace] at hfile ⊢
    rw [text_drop_place hplain]
    exact completes_loadAsset hdist.straight hplain hfile
  unfold load
  refine (completes_orStop (congrArg (·, t) hwalk)).bind ?_
  rw [List.mapM_map]
  have hall : ((t.filesWithin dist.components).map fun e =>
      some ((FilePath.ofComponents (e.1.drop dist.components.length)).text, e.2)).filterMap id =
        assetsWithin t dist := by
    rw [List.filterMap_map]
    exact congrFun List.filterMap_eq_map' _
  refine (completes_mapM hassets).bind ?_
  rw [hall]
  exact completes_pure _ t

/-! ## Writing -/

/-- Some assets, each at its place. -/
def putsOf (dist : FilePath) (assets : List (String × ByteArray)) : List (Location × ByteArray) :=
  assets.map fun a => (place dist a.1, a.2)

/-- The tree with what a table changes of the assets in a directory. -/
def stored (t : FileTree) (dist : FilePath) (after : AssetTable) : FileTree :=
  t.withFiles (putsOf dist (changed (loaded t dist) after))

/-- An asset is written below the directory that its path leads from. -/
theorem writeAsset_of_parent? {m : Type → Type} [Monad m] [FileStore m] {directory : FilePath}
    {asset : String × ByteArray} (h : (dist.join ⟨asset.1⟩).parent? = some directory) :
    (writeAsset dist asset : ExceptT Failure m Unit) = (do
      FileStore.orStop (FileStore.createDirectories directory) Failure.ofFault
      FileStore.orStop (FileStore.write (dist.join ⟨asset.1⟩) asset.2)
        (Failure.whileTrying ("Failed to write " ++ (dist.join ⟨asset.1⟩).text))) := by
  unfold writeAsset
  dsimp only
  rw [h]

/-- **Writing an asset puts a file at its place**, below directories. -/
theorem completes_writeAsset (hdist : IsStraight dist) (hplain : Path.IsPlain name)
    (contents : ByteArray) (t : FileTree) :
    Completes t (writeAsset dist (name, contents)) () (t.withFile (place dist name) contents) := by
  have hmade : t.createDirectories (.ofComponents (place dist name).dropLast) =
      t.withDirectories ((place dist name).dropLast ::
        Location.ancestors (place dist name).dropLast) := by
    rw [createDirectories, locate_parent hdist hplain]
  have habove : ∀ q ∈ (place dist name).dropLast ::
      Location.ancestors (place dist name).dropLast, q ∈ (place dist name).ancestors := by
    intro q hq
    have htop := dropLast_mem_ancestors hdist name
    rcases List.mem_cons.1 hq with rfl | hq
    · exact htop
    · exact Location.mem_ancestors_trans hq htop
  have hwritten : (t.createDirectories (.ofComponents (place dist name).dropLast)).write
      (dist.join ⟨name⟩) contents = t.withFile (place dist name) contents := by
    rw [write, locate_join hdist hplain, hmade, withFile_withDirectories habove]
  have hparent : (dist.join ⟨(name, contents).1⟩).parent? =
      some (.ofComponents (place dist name).dropLast) := parent?_join hdist hplain
  rw [writeAsset_of_parent? hparent, ← hwritten]
  exact (completes_createDirectories t _ _).bind (completes_write _ _ contents _)

/-- Writing what changed puts all of it at its places. -/
theorem completes_writeChanged {before after : AssetTable} (hdist : IsStraight dist)
    (hplain : ∀ a ∈ changed before after, Path.IsPlain a.1) (t : FileTree) :
    Completes t (writeChanged dist before after) ((changed before after).map Prod.fst)
      (t.withFiles (putsOf dist (changed before after))) := by
  have hputs : t.withFiles (putsOf dist (changed before after)) =
      (changed before after).foldl (fun t a => t.withFile (place dist a.1) a.2) t :=
    List.foldl_map
  have heach : ∀ a ∈ changed before after, ∀ t,
      Completes t (writeAsset dist a) () (t.withFile (place dist a.1) a.2) := fun a ha t =>
    completes_writeAsset hdist (hplain a ha) a.2 t
  rw [hputs]
  exact (completes_forM heach).bind (completes_pure _ _)

/-! ## What is written -/

variable {before after : AssetTable}

theorem mem_changed_iff : (name, contents) ∈ changed before after ↔
    after[name]? = some contents ∧ before[name]? ≠ some contents := by
  rw [changed, List.mem_filter, Std.ExtTreeMap.mem_toList_iff_getElem?_eq_some]
  refine and_congr_right fun _ => ?_
  rw [ne_eq, ← AssetTable.holds_iff, Bool.not_eq_true', Bool.not_eq_true]

/-- The changed assets, by names in the order of their bytes. -/
theorem changed_pairwise (before after : AssetTable) :
    (changed before after).Pairwise fun a b => Text.bytes a.1 < Text.bytes b.1 :=
  (toList_pairwise_bytes after).filter _

/-- The names that are written are those under which the tables differ. -/
theorem mem_map_changed_iff (hnames : after.names = before.names) :
    name ∈ (changed before after).map Prod.fst ↔ name ∈ before ∧ after[name]? ≠ before[name]? := by
  rw [← AssetTable.mem_iff_of_names_eq hnames, List.mem_map]
  constructor
  · rintro ⟨⟨other, contents⟩, hmem, rfl⟩
    obtain ⟨hafter, hbefore⟩ := mem_changed_iff.1 hmem
    exact ⟨AssetTable.mem_iff_exists.2 ⟨contents, hafter⟩, fun heq => hbefore (heq ▸ hafter)⟩
  · rintro ⟨hmem, hne⟩
    obtain ⟨contents, hafter⟩ := AssetTable.mem_iff_exists.1 hmem
    exact ⟨(name, contents), mem_changed_iff.2 ⟨hafter, fun h => hne (hafter.trans h.symm)⟩, rfl⟩

section Written

variable (ht : t.WellFormed) (hdist : IsOutput t dist)
variable (hnames : after.names = (loaded t dist).names) (hleaves : t.FilesAreLeaves)

include ht hdist hnames

/-- What a table with the same names holds has a file in its place. -/
theorem exists_file_of_getElem? (h : after[name]? = some contents) :
    Path.IsPlain name ∧ ∃ old, t.get? (place dist name) = some (.file old) := by
  have hmem : name ∈ loaded t dist :=
    (AssetTable.mem_iff_of_names_eq hnames).1 (AssetTable.mem_iff_exists.2 ⟨contents, h⟩)
  obtain ⟨old, hold⟩ := AssetTable.mem_iff_exists.1 hmem
  obtain ⟨hplain, hfile⟩ := (getElem?_loaded_iff ht hdist).1 hold
  exact ⟨hplain, old, hfile⟩

theorem exists_file_of_mem_changed {a : String × ByteArray}
    (h : a ∈ changed (loaded t dist) after) :
    Path.IsPlain a.1 ∧ ∃ old, t.get? (place dist a.1) = some (.file old) :=
  exists_file_of_getElem? ht hdist hnames (mem_changed_iff.1 h).1

include hleaves

/-- The places of what is written lie apart. -/
theorem apart_changed : (putsOf dist (changed (loaded t dist) after)).Pairwise
    fun e f => e.1 ≠ f.1 ∧ e.1 ∉ f.1.ancestors := by
  refine List.pairwise_map.2 ?_
  refine (changed_pairwise _ after).imp_of_mem fun {a b} ha hb hlt => ⟨fun heq => ?_, ?_⟩
  · rw [place_injective heq] at hlt
    exact List.lt_irrefl _ hlt
  · -- both places hold files already, and no file lies above another
    obtain ⟨-, old, hold⟩ := exists_file_of_mem_changed ht hdist hnames ha
    obtain ⟨-, other, hother⟩ := exists_file_of_mem_changed ht hdist hnames hb
    exact hleaves _ old _ hold (by rw [hother]; nofun)

/-- **A file that is not written is as it was.** -/
theorem get?_of_not_written (h : t.get? l = some (.file contents))
    (hne : ∀ a ∈ changed (loaded t dist) after, place dist a.1 ≠ l) :
    (stored t dist after).get? l = some (.file contents) := by
  refine (get?_withFiles_of_untouched fun e he => ?_).trans h
  obtain ⟨a, ha, rfl⟩ := List.mem_map.1 he
  obtain ⟨-, old, hold⟩ := exists_file_of_mem_changed ht hdist hnames ha
  exact ⟨(hne a ha).symm, hleaves l contents _ h (by rw [hold]; nofun)⟩

/-- **What the table holds is in its place afterwards**, written or not. -/
theorem get?_place_of_getElem? (h : after[name]? = some contents) :
    (stored t dist after).get? (place dist name) = some (.file contents) := by
  by_cases hsame : (loaded t dist)[name]? = some contents
  · refine get?_of_not_written ht hdist hnames hleaves ((getElem?_loaded_iff ht hdist).1 hsame).2 ?_
    rintro ⟨other, new⟩ ha hplace
    obtain rfl := place_injective hplace
    obtain ⟨hnew, hold⟩ := mem_changed_iff.1 ha
    exact hold (hsame.trans (h.symm.trans hnew))
  · refine get?_withFiles_of_mem (apart_changed ht hdist hnames hleaves) ?_
    exact List.mem_map.2 ⟨(name, contents), mem_changed_iff.2 ⟨h, hsame⟩, rfl⟩

/-- What is stored is what the table holds. -/
theorem get?_place_stored_iff (hplain : Path.IsPlain name) :
    (stored t dist after).get? (place dist name) = some (.file contents) ↔
      after[name]? = some contents := by
  constructor
  · intro h
    cases hafter : after[name]? with
    | some other =>
      have hother := get?_place_of_getElem? ht hdist hnames hleaves hafter
      rw [FileEntry.file.inj (Option.some.inj (hother.symm.trans h))]
    | none =>
      -- a file that is there without being in the table was loaded, and so is in it
      rcases get?_eq_file_of_withFiles h with ⟨e, he, heq⟩ | hold
      · obtain ⟨a, ha, rfl⟩ := List.mem_map.1 he
        obtain rfl := place_injective heq
        rw [(mem_changed_iff.1 ha).1] at hafter
        cases hafter
      · have hloaded := (getElem?_loaded_iff ht hdist).2 ⟨hplain, hold⟩
        obtain ⟨other, hother⟩ := AssetTable.mem_iff_exists.1
          ((AssetTable.mem_iff_of_names_eq hnames).2 (AssetTable.mem_iff_exists.2 ⟨_, hloaded⟩))
        rw [hafter] at hother
        cases hother
  · exact get?_place_of_getElem? ht hdist hnames hleaves

omit hleaves in
theorem wellFormed_stored : (stored t dist after).WellFormed := by
  refine ht.withFiles fun e he => ?_
  obtain ⟨a, ha, rfl⟩ := List.mem_map.1 he
  exact isResolved_place hdist.straight (exists_file_of_mem_changed ht hdist hnames ha).1

omit hleaves in
theorem isOutput_stored : IsOutput (stored t dist after) dist where
  straight := hdist.straight
  directory := by
    have hdir := hdist.directory
    rw [locate_dist hdist.straight] at hdir ⊢
    refine get?_withFiles_of_directory hdir fun e he heq => ?_
    obtain ⟨a, ha, rfl⟩ := List.mem_map.1 he
    obtain ⟨-, old, hold⟩ := exists_file_of_mem_changed ht hdist hnames ha
    rw [← show dist.components = place dist a.1 from heq, hdir] at hold
    cases hold

/-- **What was stored is loaded again.** -/
theorem loaded_stored : loaded (stored t dist after) dist = after := by
  refine Std.ExtTreeMap.ext_getElem? fun name => Option.ext fun contents => ?_
  rw [getElem?_loaded_iff (wellFormed_stored ht hdist hnames) (isOutput_stored ht hdist hnames)]
  constructor
  · rintro ⟨hplain, hfile⟩
    exact (get?_place_stored_iff ht hdist hnames hleaves hplain).1 hfile
  · intro h
    have hplain := (exists_file_of_getElem? ht hdist hnames h).1
    exact ⟨hplain, (get?_place_stored_iff ht hdist hnames hleaves hplain).2 h⟩

end Written

/-! ## The round trip -/

/-- **What is written to an output directory is loaded from it again, and no
other file is touched.** In a tree that calls have made, where no file lies
above anything: a directory is loaded as a table with one asset for each file
below it, under a name of plain segments. Another table of the same names is
written by writing what differs, told by name in the order of bytes; then the
directory is loaded as that table, and all other files are as they were. -/
theorem written_then_loaded {calls : List Call} {dist : FilePath}
    (hleaves : (run calls).FilesAreLeaves) (hdist : IsOutput (run calls) dist) :
    ∃ before : AssetTable, Completes (run calls) (load dist) before (run calls) ∧
      (∀ name contents, before[name]? = some contents → Path.IsPlain name ∧
        (run calls).get? ((run calls).locate (dist.join ⟨name⟩)) = some (.file contents)) ∧
      (∀ l contents, (run calls).get? l = some (.file contents) →
        (run calls).locate dist <+: l →
          ∃! name, before[name]? = some contents ∧ (run calls).locate (dist.join ⟨name⟩) = l) ∧
      ∀ after : AssetTable, after.names = before.names → ∃ names u,
        Completes (run calls) (writeChanged dist before after) names u ∧
        names.Pairwise (fun a b => Text.bytes a < Text.bytes b) ∧
        (∀ name, name ∈ names ↔ name ∈ before ∧ after[name]? ≠ before[name]?) ∧
        Completes u (load dist) after u ∧
        ∀ l contents, (run calls).get? l = some (.file contents) →
          (∀ name ∈ names, (run calls).locate (dist.join ⟨name⟩) ≠ l) →
            u.get? l = some (.file contents) := by
  have ht := wellFormed_run calls
  generalize run calls = t at *
  refine ⟨loaded t dist, completes_load ht hdist, fun name contents h => ?_,
    fun l contents h hbelow => ?_, fun after hnames => ?_⟩
  · obtain ⟨hplain, hfile⟩ := (getElem?_loaded_iff ht hdist).1 h
    exact ⟨hplain, by rw [locate_join hdist.straight hplain, hfile]⟩
  · rw [locate_dist hdist.straight] at hbelow
    obtain ⟨name, hplain, rfl⟩ := exists_place_of_file ht hdist hbelow h
    refine ⟨name, ⟨(getElem?_loaded_iff ht hdist).2 ⟨hplain, h⟩,
      locate_join hdist.straight hplain t⟩, ?_⟩
    rintro other ⟨hother, hplace⟩
    rw [locate_join hdist.straight ((getElem?_loaded_iff ht hdist).1 hother).1] at hplace
    exact place_injective hplace
  · have hplain : ∀ a ∈ changed (loaded t dist) after, Path.IsPlain a.1 := fun a ha =>
      (exists_file_of_mem_changed ht hdist hnames ha).1
    have hagain := completes_load (wellFormed_stored ht hdist hnames)
      (isOutput_stored ht hdist hnames)
    rw [loaded_stored ht hdist hnames hleaves] at hagain
    refine ⟨_, stored t dist after, completes_writeChanged hdist.straight hplain t,
      List.pairwise_map.2 (changed_pairwise _ after), fun name => mem_map_changed_iff hnames,
      hagain, fun l contents h hne => ?_⟩
    refine get?_of_not_written ht hdist hnames hleaves h fun a ha => ?_
    rw [← locate_join hdist.straight (hplain a ha) t]
    exact hne a.1 (List.mem_map_of_mem ha)

/-- Two assets in a directory that is spelled with a step that does not count,
and a file beside it with a name that goes on where that of the directory
ends. -/
def distCalls : List Call :=
  [.write ⟨"/dist/app.json"⟩ "\x7b\x7d".toUTF8, .write ⟨"/dist/subA/common/vendor.js"⟩ "v".toUTF8,
    .write ⟨"/dist-old/app.json"⟩ "".toUTF8]

theorem dist_written_then_loaded :
    (run distCalls).FilesAreLeaves ∧ IsOutput (run distCalls) ⟨"/dist/./"⟩ ∧
      ∃ before names u, Completes (run distCalls) (load ⟨"/dist/./"⟩) before (run distCalls) ∧
        Completes (run distCalls)
          (writeChanged ⟨"/dist/./"⟩ before (before.replace "app.json" "new".toUTF8)) names u ∧
        "app.json" ∈ names ∧
        Completes u (load ⟨"/dist/./"⟩) (before.replace "app.json" "new".toUTF8) u := by
  have hmade : run distCalls = empty.withFiles
    [(FilePath.components ⟨"/dist/app.json"⟩, "\x7b\x7d".toUTF8),
      (FilePath.components ⟨"/dist/subA/common/vendor.js"⟩, "v".toUTF8),
      (FilePath.components ⟨"/dist-old/app.json"⟩, "".toUTF8)] := rfl
  have hleaves : (run distCalls).FilesAreLeaves := by
    rw [hmade]
    exact filesAreLeaves_withFiles (by decide)
  have hdist : IsOutput (run distCalls) ⟨"/dist/./"⟩ := ⟨⟨by decide, by decide⟩, by rfl⟩
  obtain ⟨before, hload, hasset, hfile, hwrite⟩ := written_then_loaded hleaves hdist
  have happ : before["app.json"]? = some "\x7b\x7d".toUTF8 := by
    obtain ⟨name, ⟨hname, hplace⟩, -⟩ :=
      hfile (place ⟨"/dist/./"⟩ "app.json") "\x7b\x7d".toUTF8 (by rfl) (by decide)
    rw [locate_join hdist.straight (hasset name _ hname).1] at hplace
    exact place_injective hplace ▸ hname
  have hmem : "app.json" ∈ before := AssetTable.mem_iff_exists.2 ⟨_, happ⟩
  have hnames : (before.replace "app.json" "new".toUTF8).names = before.names := by
    rw [AssetTable.replace_eq_rewrite hmem, AssetTable.names_rewrite]
  obtain ⟨names, u, hwritten, -, hnames, hagain, -⟩ := hwrite _ hnames
  refine ⟨hleaves, hdist, before, names, u, hload, hwritten, (hnames _).2 ⟨hmem, ?_⟩, hagain⟩
  rw [AssetTable.replace, if_pos (Std.ExtTreeMap.mem_iff_contains.1 hmem),
    Std.ExtTreeMap.getElem?_insert_self, happ]
  exact fun h => absurd (congrArg ByteArray.size (Option.some.inj h)) (by decide)

end OutputDirectory

end SplitBuild
