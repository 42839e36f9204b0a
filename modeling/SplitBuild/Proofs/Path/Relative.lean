import SplitBuild.Manifest.Component
import SplitBuild.Proofs.Path.Segments
import SplitBuild.Script.RuntimeBundle
/-!
# Paths that lead back to the output root

A path of names goes down one directory with each segment but its last,
and `upward` steps back up once for each of them. Whatever stands behind
these steps is then resolved as from the output root
(`normalize_join_upward`). Three parts of a build rely on it: the load
calls of scripts, the components that a manifest uses, and the snippet of
the runtime bundle. **Each of them reaches what it names**
(`relative_reaches`).
-/

namespace SplitBuild

namespace Path

variable {asset : String} {seg : List Char} {names resolved : List (List Char)}

/-- A segment that is a name, and no step in a path. -/
structure IsName (seg : List Char) : Prop where
  ne_nil : seg ≠ []
  ne_here : seg ≠ ['.']
  ne_back : seg ≠ ['.', '.']

instance : Decidable (IsName seg) :=
  decidable_of_iff (seg ≠ [] ∧ seg ≠ ['.'] ∧ seg ≠ ['.', '.'])
    ⟨fun h => ⟨h.1, h.2.1, h.2.2⟩, fun h => ⟨h.ne_nil, h.ne_here, h.ne_back⟩⟩

/-- A path of which every segment is a name. -/
def IsPlain (p : String) : Prop := ∀ seg ∈ segments p, IsName seg

instance (p : String) : Decidable (IsPlain p) :=
  inferInstanceAs (Decidable (∀ seg ∈ segments p, IsName seg))

/-! ## Down and up -/

theorem step_of_isName (h : IsName seg) : step resolved seg = seg :: resolved := by
  have hstays : ¬ (seg = [] ∨ seg = ['.']) := not_or.2 ⟨h.ne_nil, h.ne_here⟩
  unfold step
  rw [if_neg hstays, if_neg h.ne_back]

/-- A step back leaves a name. -/
theorem step_back (h : IsName seg) : step (seg :: resolved) ['.', '.'] = resolved := by
  unfold step
  rw [if_neg (by decide), if_pos rfl]
  exact if_neg h.ne_back

/-- Names go down one after the other, the last on top. -/
theorem foldl_step_names (h : ∀ seg ∈ names, IsName seg) :
    names.foldl step resolved = names.reverse ++ resolved := by
  induction names generalizing resolved with
  | nil => rfl
  | cons seg names ih =>
    have hrest : ∀ other ∈ names, IsName other := fun other hother =>
      h other (List.mem_cons_of_mem seg hother)
    rw [List.foldl_cons, step_of_isName (h seg List.mem_cons_self), ih hrest, List.reverse_cons,
      List.append_assoc, List.singleton_append]

/-- As many steps back as there are names on top leave all of them. -/
theorem foldl_step_back (h : ∀ seg ∈ names, IsName seg) :
    (List.replicate names.length ['.', '.']).foldl step (names ++ resolved) = resolved := by
  induction names with
  | nil => rfl
  | cons seg names ih =>
    have hrest : ∀ other ∈ names, IsName other := fun other hother =>
      h other (List.mem_cons_of_mem seg hother)
    rw [List.length_cons, List.replicate_succ, List.foldl_cons, List.cons_append,
      step_back (h seg List.mem_cons_self), ih hrest]

/-- **Names and as many steps back cancel**, whatever follows. -/
theorem resolve_names_back (h : ∀ seg ∈ names, IsName seg) (segs : List (List Char)) :
    resolve (names ++ (List.replicate names.length ['.', '.'] ++ segs)) = resolve segs := by
  have hreverse : ∀ seg ∈ names.reverse, IsName seg := fun seg hseg =>
    h seg (List.mem_reverse.1 hseg)
  have hback : (List.replicate names.reverse.length ['.', '.']).foldl step (names.reverse ++ []) =
      [] := foldl_step_back hreverse
  rw [List.length_reverse] at hback
  rw [resolve, List.foldl_append, List.foldl_append, foldl_step_names h, hback, resolve]

/-! ## The way to the output root -/

/-- The way to the output root is a step back for each directory. -/
theorem segments_upward_append (asset p : String) :
    segments (upward asset ++ p) = List.replicate (depth asset) ['.', '.'] ++ segments p := by
  unfold upward
  induction depth asset with
  | zero => rw [List.replicate_zero, List.replicate_zero, String.join_nil, String.empty_append,
      List.nil_append]
  | succ n ih =>
    have hstep : String.join (List.replicate (n + 1) "../") ++ p =
        ".." ++ "/" ++ (String.join (List.replicate n "../") ++ p) := by
      rw [List.replicate_succ, String.join_cons, String.append_assoc]
      rfl
    have hback : segments ".." = [['.', '.']] := by decide
    rw [hstep, segments_append_slash, hback, ih, List.replicate_succ]
    rfl

/-- **Behind the way to the output root, a path is resolved as from the
root.** -/
theorem normalize_join_upward (h : IsPlain asset) (p : String) :
    normalize (join (dirname asset) (upward asset ++ p)) = normalize p := by
  have hdirs : ∀ dir ∈ (segments asset).dropLast, dir ∈ segments asset := fun dir hdir =>
    List.dropLast_subset _ hdir
  have hnames : ∀ dir ∈ (segments asset).dropLast, IsName dir := fun dir hdir =>
    h dir (hdirs dir hdir)
  have hdepth : depth asset = (segments asset).dropLast.length := by
    rw [List.length_dropLast, length_segments]
    omega
  have hresolve : resolve ((segments asset).dropLast ++ segments (upward asset ++ p)) =
      resolve (segments p) := by
    rw [segments_upward_append, hdepth]
    exact resolve_names_back hnames (segments p)
  rw [dirname, normalize_join_ofSegments, hresolve, normalize]
  · exact fun dir hdir => slash_not_mem_of_mem_segments (hdirs dir hdir)
  · exact fun dir hdir => (hnames dir hdir).ne_nil

/-- So the file of a bundle, as an asset sees it, is that of the bundle. -/
theorem normalize_join_relative (h : IsPlain asset) (id extension : String) :
    normalize (join (dirname asset) (relative asset id extension)) =
      normalize (id ++ extension) := by
  rw [relative, String.append_assoc]
  exact normalize_join_upward h (id ++ extension)

end Path

/-! ## Where it is used -/

namespace ComponentManifest

/-- A path that does not begin with a slash is seen from the directory of the
component. -/
theorem target_of_no_slash {component path : String} (h : path.toList.head? ≠ some '/') :
    target component path = Path.normalize (Path.join (Path.dirname component) path) := by
  unfold target
  split
  · rename_i rest hpath
    rw [hpath] at h
    exact absurd rfl h
  · rfl

/-- The path by which a component names another one begins with no slash
either. -/
theorem head?_relative_ne {component path : String} (h : path.toList.head? ≠ some '/') :
    (Path.relative component path "").toList.head? ≠ some '/' := by
  rw [Path.relative, Path.upward, String.append_empty, String.toList_append, String.toList_join]
  cases Path.depth component with
  | zero => exact h
  | succ n =>
    have hdot : "../".toList.head? = some '.' := by decide
    rw [List.replicate_succ, List.flatMap_cons, List.append_assoc, List.head?_append, hdot,
      Option.some_or]
    decide

/-- **The path by which a component names another one leads to it.** -/
theorem target_relative {component path : String} (hplain : Path.IsPlain component)
    (h : path.toList.head? ≠ some '/') :
    target component (Path.relative component path "") = Path.normalize path := by
  rw [target_of_no_slash (head?_relative_ne h), Path.normalize_join_relative hplain,
    String.append_empty]

end ComponentManifest

/-- The snippet asks the host for a chunk by the way from the runtime bundle
to the output root, the name of the chunk, and the extension of scripts. All
else in it is the same in every build. -/
theorem RuntimeBundle.exists_loadSnippet :
    ∃ before after : String, ∀ ctx : Context, loadSnippet ctx =
      before ++ "require('" ++ Path.upward ctx.runtimeBundle ++ "' + chunkId + '"
        ++ ctx.scriptExtension ++ "'" ++ after := by
  refine ⟨"\n".intercalate completionLines ++ "\n",
    ", function () \x7b" ++ "\n" ++ "\n".intercalate (requestLines .default).tail, fun ctx => ?_⟩
  have hrequest : requestLines ctx = ("require('" ++ Path.upward ctx.runtimeBundle
      ++ "' + chunkId + '" ++ ctx.scriptExtension ++ "', function () \x7b") ::
        (requestLines .default).tail := rfl
  rw [loadSnippet, hrequest, String.intercalate_append_of_ne_nil (by decide) (by simp),
    String.intercalate_cons_of_ne_nil (by decide)]
  have hquote : "', function () \x7b" = "'" ++ ", function () \x7b" := by decide
  rw [hquote]
  simp only [String.append_assoc]

/-- **A path seen from an asset reaches what it names.** For an asset whose
path is made of names: the file of a bundle, as a load call of the asset has
it, is the file of the bundle; a component that the asset names as seen from
itself is that component; and where the asset is the runtime bundle, its
snippet asks for each chunk by a path that leads to the file of the chunk. -/
theorem Path.relative_reaches {asset : String} (h : IsPlain asset) :
    (∀ id extension, normalize (join (dirname asset) (relative asset id extension)) =
      normalize (id ++ extension)) ∧
    (∀ path, path.toList.head? ≠ some '/' →
      ComponentManifest.target asset (relative asset path "") = normalize path) ∧
    ∃ before after : String, ∀ ctx : Context, ctx.runtimeBundle = asset →
      ∃ up, RuntimeBundle.loadSnippet ctx = before ++ "require('" ++ up ++ "' + chunkId + '"
          ++ ctx.scriptExtension ++ "'" ++ after ∧
        ∀ chunk, normalize (join (dirname asset) (up ++ chunk ++ ctx.scriptExtension)) =
          normalize (chunk ++ ctx.scriptExtension) := by
  refine ⟨normalize_join_relative h, fun path => ComponentManifest.target_relative h, ?_⟩
  obtain ⟨before, after, hsnippet⟩ := RuntimeBundle.exists_loadSnippet
  refine ⟨before, after, fun ctx hctx => ⟨upward asset, ?_, fun chunk => ?_⟩⟩
  · rw [hsnippet ctx, hctx]
  · exact normalize_join_relative h chunk ctx.scriptExtension

/-- From two directories down, with a bundle that is written with steps of
its own. -/
theorem Path.deep_page_reaches :
    IsPlain "subA/pages/index" ∧
      normalize (join (dirname "subA/pages/index")
        (relative "subA/pages/index" "../lib//./x" ".js")) = "../lib/x.js" ∧
      ComponentManifest.target "subA/pages/index" (relative "subA/pages/index" "subB/../chart" "")
        = "chart" := by
  have hplain : IsPlain "subA/pages/index" := by decide
  obtain ⟨hfile, hcomponent, -⟩ := relative_reaches hplain
  refine ⟨hplain, ?_, ?_⟩
  · rw [hfile]
    decide
  · rw [hcomponent "subB/../chart" (by decide)]
    decide

end SplitBuild
