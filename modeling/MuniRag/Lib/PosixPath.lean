import MuniRag.Lib.Segments
import MuniRag.Text

/-!
# POSIX paths

The resolved path of a text is the list of its segments from the root, as `path.resolve` of
`node:path` gives it.  A resolved path is written absolutely or relative to a directory, and
both texts resolve to it again (`resolve_absoluteText`, `resolve_relativeText`).
-/

namespace PosixPath

/-- A resolved path: its segments, from the root on. -/
abbrev Path := List JsString

def separator : UInt16 := 0x2f

def dot : JsString := [0x2e]

def dotDot : JsString := [0x2e, 0x2e]

/-- One piece of a text, followed from a resolved path. -/
def enter (path : Path) (piece : JsString) : Path :=
  if piece = [] ∨ piece = dot then path
  else if piece = dotDot then path.dropLast
  else path ++ [piece]

def isAbsolute (text : JsString) : Bool := text.head? == some separator

/-- `resolve` of a text, seen from a resolved path. -/
def resolve (base : Path) (text : JsString) : Path :=
  (text.splitOn separator).foldl enter (if isAbsolute text then [] else base)

/-- The text of a resolved path. -/
def absoluteText (path : Path) : JsString :=
  if path = [] then [separator] else path.flatMap fun segment => separator :: segment

/-- What two paths have in common at their head. -/
def commonHead : Path → Path → Path
  | segment :: path, other :: others =>
      if segment = other then segment :: commonHead path others else []
  | _, _ => []

/-- `relative` of two resolved paths. -/
def relativeText (base path : Path) : JsString :=
  let shared := (commonHead base path).length
  [separator].intercalate (List.replicate (base.length - shared) dotDot ++ path.drop shared)

/-- `dirname` of a resolved path. -/
abbrev parent (path : Path) : Path := path.dropLast

/-- The text of a resolved path with a suffix, resolved again. -/
def withSuffix (path : Path) (suffix : JsString) : Path :=
  path.dropLast ++ [path.getLast?.getD [] ++ suffix]

/-- The path lies in the directory, or is it. -/
def isWithin (root path : Path) : Bool := root.isPrefixOf path

/-! ## Proper paths -/

/-- A segment that names an entry of a directory. -/
structure Proper (segment : JsString) : Prop where
  notEmpty : segment ≠ []
  notDot : segment ≠ dot
  notDotDot : segment ≠ dotDot
  noSeparator : separator ∉ segment

variable {base path other : Path} {segment suffix text : JsString}

theorem Proper.enter (h : Proper segment) : enter path segment = path ++ [segment] := by
  rw [PosixPath.enter, if_neg (not_or.mpr ⟨h.notEmpty, h.notDot⟩), if_neg h.notDotDot]

theorem foldl_enter_proper {pieces : List JsString} (h : ∀ piece ∈ pieces, Proper piece) :
    pieces.foldl enter path = path ++ pieces := by
  induction pieces generalizing path with
  | nil => simp
  | cons piece pieces ih =>
      obtain ⟨hpiece, hrest⟩ := List.forall_mem_cons.mp h
      rw [List.foldl_cons, hpiece.enter, ih hrest, List.append_assoc, List.singleton_append]

/-- Following pieces without separators leads to a proper path. -/
theorem proper_foldl_enter {pieces : List JsString} (hpath : ∀ segment ∈ path, Proper segment)
    (h : ∀ piece ∈ pieces, separator ∉ piece) :
    ∀ segment ∈ pieces.foldl enter path, Proper segment := by
  induction pieces generalizing path with
  | nil => exact hpath
  | cons piece pieces ih =>
      obtain ⟨hpiece, hrest⟩ := List.forall_mem_cons.mp h
      rw [List.foldl_cons]
      refine ih (fun segment hsegment => ?_) hrest
      unfold enter at hsegment
      split_ifs at hsegment with hskip hup
      · exact hpath segment hsegment
      · exact hpath segment (List.dropLast_subset _ hsegment)
      · rcases List.mem_append.mp hsegment with hsegment | hsegment
        · exact hpath segment hsegment
        · obtain rfl := List.mem_singleton.mp hsegment
          obtain ⟨hempty, hdot⟩ := not_or.mp hskip
          exact ⟨hempty, hdot, hup, hpiece⟩

theorem proper_resolve (hbase : ∀ segment ∈ base, Proper segment) (text : JsString) :
    ∀ segment ∈ resolve base text, Proper segment := by
  refine proper_foldl_enter ?_ fun piece hpiece => Segments.not_mem_of_mem_splitOn hpiece
  split_ifs
  · simp
  · exact hbase

/-! ## Texts of resolved paths -/

theorem absoluteText_eq (hne : path ≠ []) :
    absoluteText path = [separator].intercalate ([] :: path) := by
  rw [absoluteText, if_neg hne, Segments.intercalate_cons hne, List.nil_append]
  induction path with
  | nil => exact absurd rfl hne
  | cons segment path ih =>
      cases path with
      | nil => simp
      | cons next path =>
          have hnext : next :: path ≠ [] := List.cons_ne_nil _ _
          rw [List.flatMap_cons, ih hnext, Segments.intercalate_cons hnext, List.cons_append]

theorem splitOn_absoluteText (hne : path ≠ []) (h : ∀ segment ∈ path, Proper segment) :
    (absoluteText path).splitOn separator = [] :: path := by
  rw [absoluteText_eq hne]
  refine Segments.splitOn_intercalate (List.cons_ne_nil _ _) ?_
  exact List.forall_mem_cons.mpr ⟨List.not_mem_nil, fun segment hsegment =>
    (h segment hsegment).noSeparator⟩

theorem resolve_absoluteText (h : ∀ segment ∈ path, Proper segment) :
    resolve base (absoluteText path) = path := by
  by_cases hne : path = []
  · subst hne
    rfl
  · have habsolute : isAbsolute (absoluteText path) = true := by
      obtain ⟨segment, rest, rfl⟩ := List.exists_cons_of_ne_nil hne
      simp [isAbsolute, absoluteText]
    rw [resolve, if_pos habsolute, splitOn_absoluteText hne h, List.foldl_cons]
    exact foldl_enter_proper h

theorem commonHead_append_drop : ∀ base path : Path,
    ∃ rest, base = commonHead base path ++ rest ∧
      path = commonHead base path ++ path.drop (commonHead base path).length
  | [], path => ⟨[], rfl, by simp [commonHead]⟩
  | segment :: base, [] => ⟨segment :: base, by simp [commonHead], by simp [commonHead]⟩
  | segment :: base, other :: path => by
      unfold commonHead
      split_ifs with hsame
      · obtain ⟨rest, hbase, hpath⟩ := commonHead_append_drop base path
        refine ⟨rest, congrArg (segment :: ·) hbase, ?_⟩
        simpa [hsame] using hpath
      · exact ⟨segment :: base, rfl, rfl⟩

theorem foldl_enter_dotDot (shared rest : Path) :
    (List.replicate rest.length dotDot).foldl enter (shared ++ rest) = shared := by
  induction rest using List.reverseRecOn with
  | nil => simp
  | append_singleton rest segment ih =>
      rw [List.length_append, List.length_singleton, List.replicate_succ, List.foldl_cons]
      have hup : enter (shared ++ (rest ++ [segment])) dotDot = shared ++ rest := by
        rw [← List.append_assoc]
        simp [enter, dotDot, dot]
      rw [hup, ih]

theorem resolve_relativeText (h : ∀ segment ∈ path, Proper segment) :
    resolve base (relativeText base path) = path := by
  obtain ⟨rest, hrest, hpath⟩ := commonHead_append_drop base path
  have hlength : base.length - (commonHead base path).length = rest.length := by
    have hsum := congrArg List.length hrest
    rw [List.length_append] at hsum
    omega
  have hdrop : ∀ segment ∈ path.drop (commonHead base path).length, Proper segment :=
    fun segment hsegment => h segment (List.mem_of_mem_drop hsegment)
  have hup : (List.replicate rest.length dotDot).foldl enter base = commonHead base path := by
    have hback := foldl_enter_dotDot (commonHead base path) rest
    rwa [← hrest] at hback
  rw [relativeText, hlength]
  generalize hpieces : List.replicate rest.length dotDot ++
    path.drop (commonHead base path).length = pieces
  have hfold : pieces.foldl enter base = path := by
    rw [← hpieces, List.foldl_append, hup, foldl_enter_proper hdrop]
    exact hpath.symm
  have hnone : ∀ piece ∈ pieces, piece ≠ [] ∧ separator ∉ piece := by
    intro piece hpiece
    rcases List.mem_append.mp (hpieces ▸ hpiece) with hdots | hsegment
    · rw [List.eq_of_mem_replicate hdots]
      exact ⟨by simp [dotDot], by decide⟩
    · exact ⟨(hdrop piece hsegment).notEmpty, (hdrop piece hsegment).noSeparator⟩
  cases pieces with
  | nil => simpa [resolve, isAbsolute, enter] using hfold
  | cons piece pieces =>
      have hrelative : isAbsolute ([separator].intercalate (piece :: pieces)) = false := by
        obtain ⟨hempty, hsep⟩ := hnone piece List.mem_cons_self
        obtain ⟨u, piece, rfl⟩ := List.exists_cons_of_ne_nil hempty
        have hu : u ≠ separator := fun h => hsep (h ▸ List.mem_cons_self)
        cases pieces with
        | nil => simpa [isAbsolute] using hu
        | cons next pieces =>
            rw [Segments.intercalate_cons (List.cons_ne_nil _ _)]
            simpa [isAbsolute] using hu
      rw [resolve, hrelative, Segments.splitOn_intercalate (List.cons_ne_nil _ _)
        fun piece hpiece => (hnone piece hpiece).2]
      exact hfold

/-! ## Suffixes -/

theorem getLast?_withSuffix :
    (withSuffix path suffix).getLast? = some (path.getLast?.getD [] ++ suffix) := by
  simp [withSuffix]

theorem withSuffix_ne_self (hsuffix : suffix ≠ []) : withSuffix path suffix ≠ path := by
  intro h
  have hlast := @getLast?_withSuffix path suffix
  rw [h] at hlast
  rw [hlast, Option.getD_some] at hlast
  have hlength := congrArg List.length (Option.some.inj hlast)
  simp only [List.length_append] at hlength
  have hpos := List.length_pos_iff.mpr hsuffix
  omega

/-- Suffixes that end in different units tell any two paths apart. -/
theorem withSuffix_ne {suffix' : JsString} (hsuffix : suffix ≠ []) (hsuffix' : suffix' ≠ [])
    (hlast : suffix.getLast? ≠ suffix'.getLast?) :
    withSuffix path suffix ≠ withSuffix other suffix' := by
  intro h
  have hsame := congrArg List.getLast? h
  rw [getLast?_withSuffix, getLast?_withSuffix] at hsame
  have hunits := congrArg List.getLast? (Option.some.inj hsame)
  rw [List.getLast?_append_of_ne_nil _ hsuffix, List.getLast?_append_of_ne_nil _ hsuffix'] at hunits
  exact hlast hunits

theorem isWithin_iff {root : Path} : isWithin root path = true ↔ root <+: path :=
  List.isPrefixOf_iff_prefix

end PosixPath
