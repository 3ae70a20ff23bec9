import MuniRag.Lib.Actions
import Mathlib.Data.List.Infix
import Mathlib.Logic.Function.Basic
import Mathlib.Tactic

/-!
# A file system with one failing step

A disk holds a file or a directory at a path, or nothing; a path is its list of segments.
An operation succeeds or fails by what the disk holds.  A program numbers its file-system
steps by a type of names, and at most one of them is given a fault: it fails whatever the
disk holds, and if it writes, it may leave some content behind (`attempt`).
-/

namespace FileSystem

inductive Entry
  | file (content : List UInt8)
  | directory
  deriving DecidableEq, Repr

/-- What stands at each path. -/
abbrev Disk (σ : Type) := List σ → Option Entry

inductive Errno
  | noEntry | alreadyExists | isDirectory | notDirectory | notPermitted | crossDevice | other
  deriving DecidableEq, Repr

/-- An operation that does nothing where it fails. -/
abbrev Operation (σ α : Type) := Disk σ → Except Errno (α × Disk σ)

section Operations

variable {σ : Type}

/-- The content of the file at a path. -/
def fileAt (disk : Disk σ) (path : List σ) : Option (List UInt8) :=
  match disk path with
  | some (.file content) => some content
  | _ => none

section

variable {disk disk' : Disk σ} {path : List σ} {content : List UInt8}

theorem fileAt_eq_some : fileAt disk path = some content ↔ disk path = some (.file content) := by
  unfold fileAt
  split <;> simp_all

theorem fileAt_congr (h : disk path = disk' path) : fileAt disk path = fileAt disk' path := by
  rw [fileAt, fileAt, h]

theorem fileAt_none (h : disk path = none) : fileAt disk path = none := by
  rw [fileAt, h]

end

variable [DecidableEq σ]

def Disk.put (disk : Disk σ) (path : List σ) (entry : Option Entry) : Disk σ :=
  Function.update disk path entry

def read (path : List σ) : Operation σ (List UInt8) := fun disk =>
  match disk path with
  | some (.file content) => .ok (content, disk)
  | some .directory => .error .isDirectory
  | none => .error .noEntry

/-- What stands at the path. -/
def stat (path : List σ) : Operation σ Entry := fun disk =>
  match disk path with
  | some entry => .ok (entry, disk)
  | none => .error .noEntry

/-- A file stands at the path or above it. -/
def Blocked (disk : Disk σ) (path : List σ) : Prop :=
  ∃ above ∈ path.inits, (fileAt disk above).isSome

instance (disk : Disk σ) (path : List σ) : Decidable (Blocked disk path) :=
  inferInstanceAs (Decidable (∃ above ∈ path.inits, (fileAt disk above).isSome))

/-- The directory and all above it, which may be there. -/
def Disk.withDirectory (disk : Disk σ) (path : List σ) : Disk σ := fun other =>
  if other <+: path then some .directory else disk other

def makeDirectory (path : List σ) : Operation σ Unit := fun disk =>
  if Blocked disk path then .error .notDirectory else .ok ((), disk.withDirectory path)

/-- Writing a file that must not be there. -/
def writeNew (path : List σ) (content : List UInt8) : Operation σ Unit := fun disk =>
  match disk path with
  | none => .ok ((), disk.put path (some (.file content)))
  | some _ => .error .alreadyExists

def write (path : List σ) (content : List UInt8) : Operation σ Unit := fun disk =>
  if disk path = some .directory then .error .isDirectory
  else .ok ((), disk.put path (some (.file content)))

/-- A second name for a file; the name must be free. -/
def link (source target : List σ) : Operation σ Unit := fun disk =>
  match disk source with
  | none => .error .noEntry
  | some .directory => .error .notPermitted
  | some (.file content) =>
      match disk target with
      | none => .ok ((), disk.put target (some (.file content)))
      | some _ => .error .alreadyExists

def unlink (path : List σ) : Operation σ Unit := fun disk =>
  match disk path with
  | none => .error .noEntry
  | some .directory => .error .notPermitted
  | some (.file _) => .ok ((), disk.put path none)

/-- A file gets the name of another one, or a free one; directories are not renamed. -/
def rename (source target : List σ) : Operation σ Unit := fun disk =>
  match disk source with
  | none => .error .noEntry
  | some .directory => .error .notPermitted
  | some (.file content) =>
      if disk target = some .directory then .error .isDirectory
      else .ok ((), (disk.put source none).put target (some (.file content)))

/-! ## What the operations do -/

variable {disk : Disk σ} {path other source target : List σ} {entry : Option Entry}
  {content : List UInt8}

@[simp] theorem put_self : disk.put path entry path = entry := Function.update_self _ _ _

theorem put_other (h : other ≠ path) : disk.put path entry other = disk other :=
  Function.update_of_ne h _ _

@[simp] theorem put_put {entry' : Option Entry} :
    (disk.put path entry).put path entry' = disk.put path entry' := Function.update_idem _ _ _

theorem put_comm (h : path ≠ other) {entry' : Option Entry} :
    (disk.put path entry).put other entry' = (disk.put other entry').put path entry :=
  Function.update_comm h _ _ _

/-- Putting back what was there. -/
theorem put_same (h : disk path = entry) : disk.put path entry = disk := by
  rw [← h]
  exact Function.update_eq_self _ _

@[simp] theorem fileAt_put_self :
    fileAt (disk.put path (some (.file content))) path = some content := by
  rw [fileAt_eq_some, put_self]

theorem fileAt_put_other (h : other ≠ path) :
    fileAt (disk.put path entry) other = fileAt disk other :=
  fileAt_congr (put_other h)

theorem fileAt_put_none : fileAt (disk.put path none) path = none := by
  rw [fileAt, put_self]

/-- Making directories leaves every file as it is. -/
theorem fileAt_withDirectory (h : ¬ Blocked disk path) :
    fileAt (disk.withDirectory path) other = fileAt disk other := by
  by_cases habove : other <+: path
  · have hfree : fileAt disk other = none := by
      by_contra hsome
      refine h ⟨other, (List.mem_inits _ _).mpr habove, ?_⟩
      exact Option.isSome_iff_ne_none.mpr hsome
    rw [hfree, fileAt, Disk.withDirectory, if_pos habove]
  · refine fileAt_congr ?_
    rw [Disk.withDirectory, if_neg habove]

theorem withDirectory_longer (h : path.length < other.length) :
    disk.withDirectory path other = disk other := by
  have hnot : ¬ other <+: path := fun habove => by
    have hle := habove.length_le
    omega
  rw [Disk.withDirectory, if_neg hnot]

theorem withDirectory_file (h : ¬ Blocked disk path) (hfile : disk other = some (.file content)) :
    disk.withDirectory path other = some (.file content) := by
  rw [← fileAt_eq_some, fileAt_withDirectory h, fileAt_eq_some]
  exact hfile

/-- The disk with a file. -/
abbrev withFile (disk : Disk σ) (path : List σ) (content : List UInt8) : Disk σ :=
  disk.put path (some (.file content))

theorem withFile_self : withFile disk path content path = some (.file content) := put_self

theorem withFile_other (h : other ≠ path) : withFile disk path content other = disk other :=
  put_other h

theorem withFile_put (entry : Option Entry) :
    (withFile disk path content).put path entry = disk.put path entry := put_put

theorem withFile_comm (h : path ≠ other) (entry : Option Entry) :
    (withFile disk path content).put other entry =
      withFile (disk.put other entry) path content :=
  put_comm h

/-- The root is a directory, and above everything stands one. -/
structure Rooted (disk : Disk σ) : Prop where
  root : disk [] = some .directory
  above_last : ∀ path segment, disk (path ++ [segment]) ≠ none → disk path = some .directory

theorem Rooted.above (h : Rooted disk) (hpath : disk path ≠ none) (habove : other <+: path)
    (hne : other ≠ path) : disk other = some .directory := by
  induction path using List.reverseRecOn with
  | nil => exact absurd (List.prefix_nil.mp habove) hne
  | append_singleton path segment ih =>
      have hdirectory := h.above_last path segment hpath
      rcases (List.prefix_concat_iff.mp habove) with rfl | habove
      · exact absurd rfl hne
      · by_cases hsame : other = path
        · rw [hsame, hdirectory]
        · exact ih (by simp [hdirectory]) habove hsame

/-- The disk with these entries. -/
def Disk.ofEntries (entries : List (List σ × Entry)) : Disk σ := fun path =>
  entries.lookup path

theorem rooted_ofEntries {entries : List (List σ × Entry)}
    (hroot : Disk.ofEntries entries [] = some .directory)
    (habove : ∀ entry ∈ entries, entry.1 ≠ [] →
      Disk.ofEntries entries entry.1.dropLast = some .directory) :
    Rooted (Disk.ofEntries entries) := by
  refine ⟨hroot, fun path segment hpath => ?_⟩
  obtain ⟨entry, hentry⟩ := Option.ne_none_iff_exists'.mp hpath
  obtain ⟨before, after, hentries, -⟩ := List.lookup_eq_some_iff.mp hentry
  have hmem : (path ++ [segment], entry) ∈ entries := by
    rw [hentries]
    exact List.mem_append_right _ List.mem_cons_self
  have hparent := habove _ hmem (by simp)
  rwa [List.dropLast_concat] at hparent

end Operations

/-! ## The failing step -/

/-- The error of the failing step, and what a write leaves behind. -/
structure Fault (ι : Type) where
  step : ι
  errno : Errno
  leftover : Option (List UInt8)
  deriving DecidableEq, Repr

section Attempts

variable {σ ι α : Type}

/-- The failing step has this name. -/
def FailsAt (failing : Option (Fault ι)) (step : ι) : Prop :=
  ∃ fault, failing = some fault ∧ fault.step = step

theorem failsAt_unique {failing : Option (Fault ι)} {step other : ι} (h : FailsAt failing step) (hother : FailsAt failing other) :
    step = other := by
  obtain ⟨fault, hfault, rfl⟩ := h
  obtain ⟨fault', hfault', rfl⟩ := hother
  rw [Option.some.inj (hfault.symm.trans hfault')]

variable [DecidableEq ι]

/-- A step of a program; `spoil` is what a failing write does. -/
def attempt (failing : Option (Fault ι)) (step : ι) (spoil : List UInt8 → Disk σ → Disk σ)
    (operation : Operation σ α) : Fallible Errno (Disk σ) α := fun disk =>
  match failing.filter (·.step = step) with
  | some fault => (.error fault.errno, fault.leftover.elim disk (spoil · disk))
  | none =>
      match operation disk with
      | .ok (a, disk') => (.ok a, disk')
      | .error errno => (.error errno, disk)

/-- A step that writes nothing. -/
def noSpoil : List UInt8 → Disk σ → Disk σ := fun _ disk => disk

/-- A failing write of a new file leaves some content where nothing was. -/
def spoilNew [DecidableEq σ] (path : List σ) : List UInt8 → Disk σ → Disk σ := fun content disk =>
  if disk path = none then disk.put path (some (.file content)) else disk

/-- A failing write leaves some content where no directory was. -/
def spoilFile [DecidableEq σ] (path : List σ) : List UInt8 → Disk σ → Disk σ := fun content disk =>
  if disk path = some .directory then disk else disk.put path (some (.file content))

variable {failing : Option (Fault ι)} {step : ι} {spoil : List UInt8 → Disk σ → Disk σ}
  {operation : Operation σ α} {disk disk' : Disk σ} {a : α} {errno : Errno} {fault : Fault ι}

theorem filter_of_failsAt (h : failing = some fault) (hstep : fault.step = step) :
    failing.filter (·.step = step) = some fault := by
  rw [h, Option.filter_some, if_pos (decide_eq_true hstep)]

theorem filter_of_not_failsAt (h : ¬ FailsAt failing step) :
    failing.filter (·.step = step) = none := by
  cases failing with
  | none => rfl
  | some fault =>
      have hstep : ¬ fault.step = step := fun hstep => h ⟨fault, rfl, hstep⟩
      simp [Option.filter, hstep]

theorem attempt_ok (hno : ¬ FailsAt failing step) (h : operation disk = .ok (a, disk')) :
    attempt failing step spoil operation disk = (.ok a, disk') := by
  rw [attempt, filter_of_not_failsAt hno]
  simp only [h]

theorem attempt_error (hno : ¬ FailsAt failing step) (h : operation disk = .error errno) :
    attempt failing step spoil operation disk = (.error errno, disk) := by
  rw [attempt, filter_of_not_failsAt hno]
  simp only [h]

theorem attempt_fault (h : failing = some fault) (hstep : fault.step = step) :
    attempt failing step spoil operation disk =
      (.error fault.errno, fault.leftover.elim disk (spoil · disk)) := by
  rw [attempt, filter_of_failsAt h hstep]

/-- A step that fails anyway and spoils nothing leaves the disk, fault or not. -/
theorem attempt_refused (h : operation disk = .error errno) (hspoil : ∀ content,
    spoil content disk = disk) : ∃ errno', attempt failing step spoil operation disk =
      (.error errno', disk) := by
  by_cases hfails : FailsAt failing step
  · obtain ⟨fault, hfault, hstep⟩ := hfails
    refine ⟨fault.errno, ?_⟩
    rw [attempt_fault hfault hstep]
    cases fault.leftover with
    | none => rfl
    | some content => exact congrArg _ (hspoil content)
  · exact ⟨errno, attempt_error hfails h⟩

end Attempts

end FileSystem
