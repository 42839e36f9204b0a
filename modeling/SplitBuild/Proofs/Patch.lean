import SplitBuild.Patch
import SplitBuild.Proofs.FileTree.Calls
import SplitBuild.Proofs.FileTree.Programs
/-!
# Lenient and strict patches

Replacers run one after the other, each on the text that the one before has
left. Where one finds nothing, a lenient run passes it over and a strict run
stops. A lenient run does the same as a strict one of the replacers that
were taken, those that found something when their turn came
(`run_lenient_eq`), and a strict run that reaches its end has taken all of
them (`taken_eq_self`). A patch on a file tree either leaves the tree as it
was or writes the one file (`outcome_cases`).
-/

namespace SplitBuild

namespace Replacer

variable {r s : Replacer} {rs : List Replacer} {text next : String} {f : Failure} {strict : Bool}

/-! ## One turn -/

/-- A replacer that finds nothing is passed over in a lenient run. -/
theorem run_lenient_cons_of_not_occursIn (h : ¬ r.occursIn text) (rs : List Replacer) :
    run false (r :: rs) text = run false rs text := by
  rw [run, if_neg h, if_neg Bool.false_ne_true]

/-- And it stops a strict run. -/
theorem run_strict_cons_of_not_occursIn (h : ¬ r.occursIn text) (rs : List Replacer) :
    run true (r :: rs) text = .error (.missing r) := by
  rw [run, if_neg h, if_pos rfl]

/-- A replacement that fails stops either run. -/
theorem run_cons_of_error (h : r.occursIn text) (happly : r.apply text = .error f)
    (strict : Bool) (rs : List Replacer) : run strict (r :: rs) text = .error (.failed f) := by
  rw [run, if_pos h, happly]
  rfl

/-- Otherwise both runs go on with the text that is left. -/
theorem run_cons_of_ok (h : r.occursIn text) (happly : r.apply text = .ok next)
    (strict : Bool) (rs : List Replacer) : run strict (r :: rs) text = run strict rs next := by
  rw [run, if_pos h, happly]
  rfl

/-- What the turn of a replacer comes to. -/
theorem turn_cases (r : Replacer) (text : String) :
    (¬ r.occursIn text) ∨ (∃ f, r.occursIn text ∧ r.apply text = .error f) ∨
      ∃ next, r.occursIn text ∧ r.apply text = .ok next := by
  by_cases h : r.occursIn text
  · cases happly : r.apply text with
    | error f => exact .inr (.inl ⟨f, h, rfl⟩)
    | ok next => exact .inr (.inr ⟨next, h, rfl⟩)
  · exact .inl h

/-! ## The replacers that are taken -/

/-- The turn of a replacer comes in a lenient run, after some others, and what
it looks for occurs in the text that they have left. -/
def isTaken (others : List Replacer) (text : String) (r : Replacer) : Bool :=
  match run false others text with
  | .ok left => r.occursIn left
  | .error _ => false

/-- The replacers that are taken in a lenient run, in order. -/
def taken (rs : List Replacer) (text : String) : List Replacer :=
  (rs.zipIdx.filter fun e => isTaken (rs.take e.2) text e.1).map Prod.fst

theorem taken_sublist (rs : List Replacer) (text : String) : (taken rs text).Sublist rs := by
  have hall : rs.zipIdx.map Prod.fst = rs := List.zipIdx_map_fst 0 rs
  have hsome := (List.filter_sublist (p := fun e => isTaken (rs.take e.2) text e.1)
    (l := rs.zipIdx)).map Prod.fst
  rwa [hall] at hsome

/-- Behind the first replacer, those are taken that are taken after it. -/
theorem taken_cons (r : Replacer) (rs : List Replacer) (text : String) :
    taken (r :: rs) text = (if r.occursIn text then [r] else []) ++
      (rs.zipIdx.filter fun e => isTaken (r :: rs.take e.2) text e.1).map Prod.fst := by
  have hrest : ((rs.zipIdx 1).filter fun e => isTaken ((r :: rs).take e.2) text e.1).map Prod.fst =
      (rs.zipIdx.filter fun e => isTaken (r :: rs.take e.2) text e.1).map Prod.fst := by
    rw [List.zipIdx_succ, List.filter_map, List.map_map]
    rfl
  have hfirst : isTaken ((r :: rs).take 0) text r = r.occursIn text := rfl
  rw [taken, List.zipIdx_cons, List.filter_cons, ← hrest]
  simp only [hfirst]
  by_cases h : r.occursIn text
  · rw [if_pos h, if_pos h]
    rfl
  · rw [if_neg h, if_neg h]
    rfl

/-- A replacer that finds nothing is not taken. -/
theorem taken_cons_of_not_occursIn (h : ¬ r.occursIn text) (rs : List Replacer) :
    taken (r :: rs) text = taken rs text := by
  have hafter : ∀ others s, isTaken (r :: others) text s = isTaken others text s :=
    fun others s => by rw [isTaken, run_lenient_cons_of_not_occursIn h, isTaken]
  rw [taken_cons, if_neg h, taken, List.nil_append]
  simp only [hafter]

/-- Behind a replacement that fails no turn comes. -/
theorem taken_cons_of_error (h : r.occursIn text) (happly : r.apply text = .error f)
    (rs : List Replacer) : taken (r :: rs) text = [r] := by
  have hnone : rs.zipIdx.filter (fun e => isTaken (r :: rs.take e.2) text e.1) = [] :=
    List.filter_eq_nil_iff.2 fun e _ => by
      rw [isTaken, run_cons_of_error h happly]
      exact Bool.false_ne_true
  rw [taken_cons, if_pos h, hnone, List.map_nil, List.append_nil]

theorem taken_cons_of_ok (h : r.occursIn text) (happly : r.apply text = .ok next)
    (rs : List Replacer) : taken (r :: rs) text = r :: taken rs next := by
  have hafter : ∀ others s, isTaken (r :: others) text s = isTaken others next s :=
    fun others s => by rw [isTaken, run_cons_of_ok h happly, isTaken]
  rw [taken_cons, if_pos h, taken, List.singleton_append]
  simp only [hafter]

/-! ## The two runs -/

/-- **A lenient run does what a strict run of the taken replacers does.** -/
theorem run_lenient_eq (rs : List Replacer) (text : String) :
    run false rs text = run true (taken rs text) text := by
  -- the first replacer has the same turn in both runs, or is in neither
  induction rs generalizing text with
  | nil => rfl
  | cons r rs ih =>
    rcases turn_cases r text with h | ⟨f, h, happly⟩ | ⟨next, h, happly⟩
    · rw [run_lenient_cons_of_not_occursIn h, taken_cons_of_not_occursIn h, ih]
    · rw [run_cons_of_error h happly, taken_cons_of_error h happly, run_cons_of_error h happly]
    · rw [run_cons_of_ok h happly, taken_cons_of_ok h happly, run_cons_of_ok h happly, ih]

/-- A strict run that reaches its end takes every replacer. -/
theorem taken_eq_self (h : run true rs text = .ok next) : taken rs text = rs := by
  induction rs generalizing text with
  | nil => rfl
  | cons r rs ih =>
    rcases turn_cases r text with habsent | ⟨f, hr, happly⟩ | ⟨left, hr, happly⟩
    · rw [run_strict_cons_of_not_occursIn habsent] at h
      cases h
    · rw [run_cons_of_error hr happly] at h
      cases h
    · rw [run_cons_of_ok hr happly] at h
      rw [taken_cons_of_ok hr happly, ih h]

/-- So a lenient run ends with the same text. -/
theorem run_lenient_of_strict (h : run true rs text = .ok next) : run false rs text = .ok next := by
  rw [run_lenient_eq, taken_eq_self h, h]

/-- A replacer has its turn in a lenient run, on a text where what it looks
for does not occur. -/
def Misses (rs : List Replacer) (text : String) : Prop :=
  ∃ i r left, rs[i]? = some r ∧ run false (rs.take i) text = .ok left ∧ ¬ r.occursIn left

theorem misses_cons_of_not_occursIn (h : ¬ r.occursIn text) (rs : List Replacer) :
    Misses (r :: rs) text := ⟨0, r, text, rfl, rfl, h⟩

theorem not_misses_cons_of_error (h : r.occursIn text) (happly : r.apply text = .error f)
    (rs : List Replacer) : ¬ Misses (r :: rs) text := by
  rintro ⟨i, s, left, hs, hleft, habsent⟩
  cases i with
  | zero =>
    obtain rfl := Option.some.inj hs
    obtain rfl := Except.ok.inj hleft
    exact habsent h
  | succ i =>
    rw [List.take_succ_cons, run_cons_of_error h happly] at hleft
    cases hleft

theorem misses_cons_of_ok (h : r.occursIn text) (happly : r.apply text = .ok next)
    (rs : List Replacer) : Misses (r :: rs) text ↔ Misses rs next := by
  constructor
  · rintro ⟨i, s, left, hs, hleft, habsent⟩
    cases i with
    | zero =>
      obtain rfl := Option.some.inj hs
      obtain rfl := Except.ok.inj hleft
      exact absurd h habsent
    | succ i =>
      rw [List.take_succ_cons, run_cons_of_ok h happly] at hleft
      exact ⟨i, s, left, hs, hleft, habsent⟩
  · rintro ⟨i, s, left, hs, hleft, habsent⟩
    refine ⟨i + 1, s, left, hs, ?_, habsent⟩
    rw [List.take_succ_cons, run_cons_of_ok h happly, hleft]

/-- **A strict run stops at a replacer that finds nothing exactly where there
is one.** -/
theorem exists_missing_iff (rs : List Replacer) (text : String) :
    (∃ r, run true rs text = .error (.missing r)) ↔ Misses rs text := by
  induction rs generalizing text with
  | nil =>
    refine iff_of_false (fun ⟨r, h⟩ => nomatch h) ?_
    rintro ⟨i, r, left, hr, -⟩
    cases hr
  | cons r rs ih =>
    rcases turn_cases r text with h | ⟨f, h, happly⟩ | ⟨next, h, happly⟩
    · rw [run_strict_cons_of_not_occursIn h]
      exact iff_of_true ⟨r, rfl⟩ (misses_cons_of_not_occursIn h rs)
    · rw [run_cons_of_error h happly]
      exact iff_of_false (fun ⟨s, hs⟩ => nomatch hs) (not_misses_cons_of_error h happly rs)
    · rw [run_cons_of_ok h happly, misses_cons_of_ok h happly]
      exact ih next

theorem applyAll_eq_ok_iff :
    applyAll strict rs text = .ok next ↔ run strict rs text = .ok next := by
  unfold applyAll
  cases run strict rs text with
  | error stop => exact iff_of_false nofun nofun
  | ok left => exact ⟨fun h => congrArg _ (Except.ok.inj h), fun h => congrArg _ (Except.ok.inj h)⟩

end Replacer

/-! ## Patches on a file tree -/

namespace Patch

open FileTree (Completes Fails)

variable {patch : Patch} {root : FilePath} {strict : Bool} {t u : FileTree}
variable {before after : String} {f : Failure}

/-- The file of a patch holds a text. -/
def Holds (t : FileTree) (patch : Patch) (root : FilePath) (text : String) : Prop :=
  t.get? (t.locate (root.join patch.file)) = some (.file text.toUTF8)

theorem completes_read (h : Holds t patch root before) (fail : FileFault → Failure) :
    Completes t (FileStore.orStop (FileStore.readText (root.join patch.file)) fail) before t :=
  FileTree.completes_orStop ((FileTree.readText_run_eq_ok_iff t _).2 h)

/-- A patch fails where its file holds no text. -/
theorem fails_of_not_holds (h : ∀ text, ¬ Holds t patch root text) (strict : Bool) :
    ∃ f, Fails t (patch.apply root strict) f t := by
  have hrun := FileTree.readText_run t (root.join patch.file)
  cases hread : (t.read (root.join patch.file)).bind FileStore.textOf with
  | ok text =>
    rw [hread] at hrun
    exact absurd ((FileTree.readText_run_eq_ok_iff t _).1 hrun) (h text)
  | error fault =>
    rw [hread] at hrun
    exact ⟨_, (FileTree.fails_orStop _ hrun).bind _⟩

/-- It fails where its replacers do. -/
theorem fails_of_applyAll_error (h : Holds t patch root before)
    (hstop : Replacer.applyAll strict patch.replacers before = .error f) :
    Fails t (patch.apply root strict)
      (f.within ("Failed to patch " ++ (root.join patch.file).text)) t := by
  refine (completes_read h _).bind_fails ?_
  rw [hstop]
  exact FileTree.fails_throw _ t

/-- A file that comes out as it was is left alone. -/
theorem completes_of_applyAll_eq (h : Holds t patch root before)
    (hrun : Replacer.applyAll strict patch.replacers before = .ok before) :
    Completes t (patch.apply root strict) false t := by
  refine (completes_read h _).bind ?_
  rw [hrun]
  dsimp only
  rw [if_pos rfl]
  exact FileTree.completes_pure false t

/-- A file that comes out changed is written. -/
theorem completes_of_applyAll_ne (h : Holds t patch root before)
    (hrun : Replacer.applyAll strict patch.replacers before = .ok after) (hne : after ≠ before) :
    Completes t (patch.apply root strict) true
      (t.write (root.join patch.file) after.toUTF8) := by
  refine (completes_read h _).bind ?_
  rw [hrun]
  dsimp only
  rw [if_neg hne]
  exact (FileTree.completes_write t _ _ _).bind (FileTree.completes_pure true _)

/-- What is written is held. -/
theorem holds_write (t : FileTree) (patch : Patch) (root : FilePath) (text : String) :
    Holds (t.write (root.join patch.file) text.toUTF8) patch root text := by
  have htarget : (FileTree.Call.write (root.join patch.file) text.toUTF8).leaves? t
      (t.locate (root.join patch.file)) = some (.file text.toUTF8) := if_pos rfl
  have hwritten := FileTree.get?_write t (root.join patch.file) text.toUTF8
    (t.locate (root.join patch.file))
  rw [htarget] at hwritten
  exact hwritten

/-- The file of a patch holds a text, and its replacers make another one of
it. -/
structure Changes (t : FileTree) (patch : Patch) (root : FilePath) (strict : Bool)
    (before after : String) : Prop where
  holds : Holds t patch root before
  applyAll_eq : Replacer.applyAll strict patch.replacers before = .ok after
  ne : after ≠ before

/-- **A patch leaves the tree as it was, or writes the text that its file comes
out with.** -/
theorem outcome_cases (t : FileTree) (patch : Patch) (root : FilePath) (strict : Bool) :
    (∃ f, Fails t (patch.apply root strict) f t) ∨
      Completes t (patch.apply root strict) false t ∨
      ∃ before after, Changes t patch root strict before after ∧
        Completes t (patch.apply root strict) true
          (t.write (root.join patch.file) after.toUTF8) := by
  by_cases hholds : ∃ before, Holds t patch root before
  · obtain ⟨before, hbefore⟩ := hholds
    cases hrun : Replacer.applyAll strict patch.replacers before with
    | error f => exact .inl ⟨_, fails_of_applyAll_error hbefore hrun⟩
    | ok after =>
      by_cases hsame : after = before
      · rw [hsame] at hrun
        exact .inr (.inl (completes_of_applyAll_eq hbefore hrun))
      · exact .inr (.inr ⟨before, after, ⟨hbefore, hrun, hsame⟩,
          completes_of_applyAll_ne hbefore hrun hsame⟩)
  · exact .inl (fails_of_not_holds (not_exists.1 hholds) strict)

/-- A patch that fails has written nothing. -/
theorem eq_of_fails (h : Fails t (patch.apply root strict) f u) : u = t := by
  rcases outcome_cases t patch root strict with ⟨g, hfails⟩ | hkept | ⟨b, a, -, hwritten⟩
  · exact (h.unique hfails).2
  · exact absurd hkept h.not_completes
  · exact absurd hwritten h.not_completes

/-- A patch that says that nothing changed has written nothing. -/
theorem eq_of_completes_false (h : Completes t (patch.apply root strict) false u) : u = t := by
  rcases outcome_cases t patch root strict with ⟨g, hfails⟩ | hkept | ⟨b, a, -, hwritten⟩
  · exact absurd h hfails.not_completes
  · exact (h.unique hkept).2
  · exact absurd (h.unique hwritten).1 Bool.false_ne_true

/-- It says that the file changed where its text does. -/
theorem exists_completes_true_iff :
    (∃ u, Completes t (patch.apply root strict) true u) ↔
      ∃ before after, Changes t patch root strict before after := by
  constructor
  · rintro ⟨u, h⟩
    rcases outcome_cases t patch root strict with ⟨g, hfails⟩ | hkept | ⟨b, a, hchanges, -⟩
    · exact absurd h hfails.not_completes
    · exact absurd (hkept.unique h).1 Bool.false_ne_true
    · exact ⟨b, a, hchanges⟩
  · rintro ⟨before, after, hchanges⟩
    exact ⟨_, completes_of_applyAll_ne hchanges.holds hchanges.applyAll_eq hchanges.ne⟩

/-- Then the file holds the text that came out. -/
theorem Changes.holds_after (hchanges : Changes t patch root strict before after)
    (h : Completes t (patch.apply root strict) true u) : Holds u patch root after := by
  obtain ⟨-, rfl⟩ := h.unique
    (completes_of_applyAll_ne hchanges.holds hchanges.applyAll_eq hchanges.ne)
  exact holds_write t patch root after

/-- **Strict and lenient patches agree.** A lenient run of replacers comes to
what a strict run of those comes to that were taken; so where the strict run of
all of them ends with a text, the lenient run ends with it too; and a strict
run stops for want of a pattern exactly where one is missing when its turn
comes. A patch on a file tree leaves the tree as it was where it fails and
where it says that nothing changed; it says that its file changed exactly where
the text that comes out is another one, and then the file holds that text. -/
theorem lenient_agrees_with_strict :
    (∀ (rs : List Replacer) (text : String),
      (Replacer.taken rs text).Sublist rs ∧
      Replacer.applyAll false rs text = Replacer.applyAll true (Replacer.taken rs text) text ∧
      (∀ next, Replacer.applyAll true rs text = .ok next →
        Replacer.applyAll false rs text = .ok next) ∧
      ((∃ r, Replacer.run true rs text = .error (.missing r)) ↔ Replacer.Misses rs text)) ∧
    ∀ (t : FileTree) (patch : Patch) (root : FilePath) (strict : Bool),
      (∀ f u, Fails t (patch.apply root strict) f u → u = t) ∧
      (∀ u, Completes t (patch.apply root strict) false u → u = t) ∧
      ((∃ u, Completes t (patch.apply root strict) true u) ↔
        ∃ before after, Changes t patch root strict before after) ∧
      ∀ before after u, Changes t patch root strict before after →
        Completes t (patch.apply root strict) true u → Holds u patch root after := by
  refine ⟨fun rs text => ⟨Replacer.taken_sublist rs text, ?_, fun next h => ?_,
    Replacer.exists_missing_iff rs text⟩, fun t patch root strict => ⟨fun f u => eq_of_fails,
    fun u => eq_of_completes_false, exists_completes_true_iff,
    fun before after u hchanges => hchanges.holds_after⟩⟩
  · rw [Replacer.applyAll, Replacer.run_lenient_eq, Replacer.applyAll]
  · exact Replacer.applyAll_eq_ok_iff.2
      (Replacer.run_lenient_of_strict (Replacer.applyAll_eq_ok_iff.1 h))

/-- A patch that renames what a file declares. -/
def declarationPatch (file : String) : Patch := ⟨⟨file⟩, [.literal "let a" "let b"]⟩

/-- A file with the declaration, and one without. -/
def sources : FileTree :=
  FileTree.run [.write ⟨"/project/a.js"⟩ "let a = 1;".toUTF8, .write ⟨"/project/c.js"⟩ "c".toUTF8]

/-- The file with the declaration is changed; the other one is left by a
lenient patch, and fails a strict one. -/
theorem declaration_patched :
    Replacer.applyAll false (declarationPatch "a.js").replacers "let a = 1;" = .ok "let b = 1;" ∧
      (∃ u, Completes sources ((declarationPatch "a.js").apply ⟨"/project"⟩ true) true u ∧
        Holds u (declarationPatch "a.js") ⟨"/project"⟩ "let b = 1;") ∧
      (∃ u, Completes sources ((declarationPatch "c.js").apply ⟨"/project"⟩ false) false u ∧
        u = sources) ∧
      ∃ f u, Fails sources ((declarationPatch "c.js").apply ⟨"/project"⟩ true) f u ∧
        u = sources := by
  obtain ⟨hruns, hpatches⟩ := lenient_agrees_with_strict
  have hstrict : Replacer.applyAll true (declarationPatch "a.js").replacers "let a = 1;" =
      .ok "let b = 1;" := by rfl
  obtain ⟨-, -, hlenient, -⟩ := hruns (declarationPatch "a.js").replacers "let a = 1;"
  obtain ⟨-, -, hchanged, hheld⟩ := hpatches sources (declarationPatch "a.js") ⟨"/project"⟩ true
  have hchanges : Changes sources (declarationPatch "a.js") ⟨"/project"⟩ true
      "let a = 1;" "let b = 1;" := ⟨by rfl, hstrict, by decide⟩
  obtain ⟨u, hu⟩ := hchanged.2 ⟨_, _, hchanges⟩
  obtain ⟨-, hkept, -⟩ := hpatches sources (declarationPatch "c.js") ⟨"/project"⟩ false
  obtain ⟨hfailed, -⟩ := hpatches sources (declarationPatch "c.js") ⟨"/project"⟩ true
  have hother : Holds sources (declarationPatch "c.js") ⟨"/project"⟩ "c" := by rfl
  have hpassed : Replacer.applyAll false (declarationPatch "c.js").replacers "c" = .ok "c" := by rfl
  have hstopped : Replacer.applyAll true (declarationPatch "c.js").replacers "c" =
      .error (.ofMessage "Can't find replacer pattern string: \"let a\"") := by rfl
  have hleft := completes_of_applyAll_eq hother hpassed
  have hmissing := fails_of_applyAll_error hother hstopped
  exact ⟨hlenient _ hstrict, ⟨u, hu, hheld _ _ u hchanges hu⟩, ⟨_, hleft, hkept _ hleft⟩,
    ⟨_, _, hmissing, hfailed _ _ hmissing⟩⟩

end Patch

end SplitBuild
