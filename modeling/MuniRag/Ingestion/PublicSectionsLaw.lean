import MuniRag.Ingestion.PublicSections

/-!
# Public sections come in whole generations

Runs of `projectPublicSections` for one version.  `Effect` says once what a request can do, and the
invariant `Inv` is kept by each of its cases: a delete takes all sections of a call or none, since
the sections of a call appear together and are locked until they are gone together.  A call commits
only if it saw no section but its own, so two calls leave sections side by side only if each
counted before the other committed (`Saw`); this needs a start without sections to wait for
(`first_projections_repeat`), and the next call that sees both deletes both.
-/

namespace PublicSections

open Ingestion Runs
open scoped List

/-! ## What a step does -/

section Steps

variable {ι : Type} [DecidableEq ι] {version : Key} {world : World ι} {i : ι}

/-- The call has counted so many vectors, all of one job. -/
def Counted (log : List (Entry ι)) (i : ι) (vectorCount : Nat) : Prop :=
  ∃ vectors, .counted i vectors ∈ log ∧ vectors.length = vectorCount ∧ vectors ≠ [] ∧
    (jobsOf vectors).length = 1

omit [DecidableEq ι] in
theorem Counted.append {log : List (Entry ι)} {vectorCount : Nat} (h : Counted log i vectorCount)
    (more : List (Entry ι)) : Counted (log ++ more) i vectorCount := by
  obtain ⟨vectors, hmem, hrest⟩ := h
  exact ⟨vectors, List.mem_append_left _ hmem, hrest⟩

/-- What a call has recorded on its way to a phase. -/
def Account (log : List (Entry ι)) (i : ι) : Phase ι → Prop
  | .checking vectorCount | .preparing vectorCount | .deleting vectorCount _ _ =>
      Counted log i vectorCount
  | .verifying vectorCount _ vectors => Counted log i vectorCount ∧ .inserted i vectors ∈ log
  | .committing result _ vectors | .returned result vectors =>
      Counted log i vectors.length ∧ .inserted i vectors ∈ log ∧
        result.vectorCount = vectors.length ∧ result.sectionCount = vectors.length
  | .unheard vectors => Counted log i vectors.length ∧ .inserted i vectors ∈ log
  | .counting | .thrown _ => True

/-- What a request can do: wait, go on without touching rows, delete a row, find its count right,
commit, or fail. -/
inductive Effect (world : World ι) (i : ι) : Option (Entry ι) → World ι → Prop
  | waits : Effect world i none world
  | goesOn {entry phase} (hdeleted : phase.deleted = (world.phases i).deleted)
      (hpublished : phase.published = none) (hbefore : (world.phases i).published = none)
      (hcommitting : ∀ result deleted vectors, phase ≠ .committing result deleted vectors)
      (hsnapshot : phase.snapshot = (world.phases i).snapshot ∨
        phase.snapshot = world.sections.map (·.id) ∧ (world.phases i).snapshot = [] ∨
        ∃ id, id ∉ world.sections.map (·.id) ∧ (world.phases i).snapshot = id :: phase.snapshot)
      (hentry : ∀ j, entry ≠ some (.committed j) ∧ entry ≠ some (.verified j))
      (haccount : ∀ log, Account log i (world.phases i) → Account (log ++ entry.toList) i phase) :
      Effect world i entry (world.put i phase)
  | deletes {vectorCount id remaining deleted}
      (hphase : world.phases i = .deleting vectorCount (id :: remaining) deleted)
      (hfree : world.locked id = none) (hrow : id ∈ world.sections.map (·.id)) :
      Effect world i none ({ world with locked := Function.update world.locked id (some i) }.put i
        (.deleting vectorCount remaining (id :: deleted)))
  | verifies {deleted vectors result}
      (hphase : world.phases i = .verifying vectors.length deleted vectors)
      (hvisible : world.visible deleted = [])
      (hresult : result = ⟨vectors.length, vectors.length, deleted.length⟩) :
      Effect world i (some (.verified i)) (world.put i (.committing result deleted vectors))
  | commits {result deleted vectors phase}
      (hphase : world.phases i = .committing result deleted vectors)
      (hafter : phase = .returned result vectors ∨ phase = .unheard vectors) :
      Effect world i (some (.committed i)) (world.commit i deleted vectors phase)
  | fails {error} (hbefore : (world.phases i).published = none) :
      Effect world i none (world.fail i error)

theorem proceed_effect :
    Effect world i (world.recorded version i) (world.proceed version i) := by
  cases hphase : world.phases i with
  | counting =>
      simp only [World.proceed, World.recorded, hphase]
      split_ifs with hnone
      · exact .fails (by rw [hphase]; rfl)
      · refine .goesOn (by rw [hphase]; rfl) rfl (by rw [hphase]; rfl) (by simp)
          (.inl (by rw [hphase]; rfl)) (by simp) fun log _ => ?_
        obtain ⟨hsome, hone⟩ := not_or.mp hnone
        have hne : world.corpus.eligible version ≠ [] := fun heq => hsome (by rw [heq]; simp)
        exact ⟨_, List.mem_append_right _ List.mem_cons_self, rfl, hne, not_ne_iff.mp hone⟩
  | checking vectorCount =>
      simp only [World.proceed, World.recorded, hphase]
      split_ifs
      · exact .fails (by rw [hphase]; rfl)
      · exact .goesOn (by rw [hphase]; rfl) rfl (by rw [hphase]; rfl) (by simp)
          (.inl (by rw [hphase]; rfl)) (by simp)
          fun log haccount => by
            rw [hphase] at haccount
            exact Counted.append haccount _
  | preparing vectorCount =>
      simp only [World.proceed, World.recorded, hphase]
      exact .goesOn (by rw [hphase]; rfl) rfl (by rw [hphase]; rfl) (by simp)
        (.inr (.inl ⟨List.append_nil _, by rw [hphase]; rfl⟩)) (by simp)
        fun log haccount => by
            rw [hphase] at haccount
            exact Counted.append haccount _
  | deleting vectorCount remaining deleted =>
      cases remaining with
      | nil =>
          simp only [World.proceed, World.recorded, hphase]
          exact .goesOn (by rw [hphase]; rfl) rfl (by rw [hphase]; rfl) (by simp)
            (.inl (by rw [hphase]; rfl)) (by simp) fun log haccount => by
              rw [hphase] at haccount
              exact ⟨Counted.append haccount _, List.mem_append_right _ List.mem_cons_self⟩
      | cons id remaining =>
          simp only [World.proceed, World.recorded, hphase, World.deleteNext]
          split_ifs with hlocked hrow
          · exact .waits
          · exact .deletes hphase (not_ne_iff.mp hlocked) hrow
          · exact .goesOn (by rw [hphase]; rfl) rfl (by rw [hphase]; rfl) (by simp)
              (.inr (.inr ⟨id, hrow, by rw [hphase]; rfl⟩)) (by simp) fun log haccount => by
                rw [hphase] at haccount
                exact Counted.append haccount _
  | verifying vectorCount deleted vectors =>
      simp only [World.proceed, World.recorded, hphase]
      split_ifs with hwrong
      · exact .fails (by rw [hphase]; rfl)
      · obtain ⟨hlength, hcount⟩ := not_or.mp hwrong
        obtain rfl : vectors.length = vectorCount := not_ne_iff.mp hlength
        have hvisible : world.visible deleted = [] :=
          List.length_eq_zero_iff.mp (by have := not_ne_iff.mp hcount; omega)
        exact .verifies hphase hvisible (by rw [not_ne_iff.mp hcount])
  | committing result deleted vectors =>
      simp only [World.proceed, World.recorded, hphase]
      exact .commits hphase (.inl rfl)
  | returned result vectors =>
      simp only [World.proceed, World.recorded, hphase]
      exact .waits
  | unheard vectors =>
      simp only [World.proceed, World.recorded, hphase]
      exact .waits
  | thrown error =>
      simp only [World.proceed, World.recorded, hphase]
      exact .waits

theorem step_request (fault : Fault) :
    Effect world i (world.entry version (.request i fault))
      (world.step version (.request i fault)) := by
  cases fault with
  | none => exact proceed_effect
  | lost =>
      cases hphase : world.phases i <;> simp [World.entry, World.step, hphase, Phase.hasEnded] <;>
        first
          | exact .waits
          | exact .fails (by rw [hphase]; rfl)
  | unheard =>
      cases hphase : world.phases i <;> simp [World.entry, World.step, hphase, Phase.hasEnded] <;>
        first
          | exact .waits
          | exact .fails (by rw [hphase]; rfl)
          | exact .commits hphase (.inr rfl)

end Steps

/-! ## The invariant -/

section Invariant

variable {ι : Type} [DecidableEq ι]

/-- The sections of a call. -/
def World.rowsOf (world : World ι) (i : ι) : List (SectionRow ι) :=
  world.sections.filter fun row => row.owner = i

/-- `j` had committed when `i` counted its sections. -/
def Saw (log : List (Entry ι)) (i j : ι) : Prop := [.committed j, .verified i] <+ log

structure Inv (log : List (Entry ι)) (world : World ι) : Prop where
  locks : ∀ id i, world.locked id = some i ↔ id ∈ (world.phases i).deleted
  held : ∀ i, ∀ id ∈ (world.phases i).deleted, id ∈ world.sections.map (·.id)
  known : ∀ i, ∀ id ∈ (world.phases i).snapshot, (world.phases id.1).published ≠ none
  owned : ∀ row ∈ world.sections, (world.phases row.owner).published ≠ none
  whole : ∀ i vectors, (world.phases i).published = some vectors →
    world.rowsOf i = [] ∨ world.rowsOf i = generation i vectors
  closed : ∀ i, ∀ row ∈ world.sections, ∀ row' ∈ world.sections, row.owner = row'.owner →
    row.id ∈ (world.phases i).snapshot → row'.id ∈ (world.phases i).snapshot
  logged : ∀ i, .committed i ∈ log ↔ (world.phases i).published ≠ none
  sure : ∀ i result deleted vectors, world.phases i = .committing result deleted vectors →
    ∀ row ∈ world.sections, row.id ∈ deleted ∨ ¬ Saw log i row.owner
  apart : ∀ row ∈ world.sections, ∀ row' ∈ world.sections, row.owner ≠ row'.owner →
    ¬ Saw log row'.owner row.owner

theorem pair_sublist_concat {α : Type*} {a b e : α} {log : List α} :
    [a, b] <+ log ++ [e] ↔ [a, b] <+ log ∨ a ∈ log ∧ b = e := by
  constructor
  · intro h
    obtain ⟨front, back, heq, hfront, hback⟩ := List.sublist_append_iff.mp h
    rcases List.sublist_singleton.mp hback with rfl | rfl
    · rw [List.append_nil] at heq
      exact .inl (heq ▸ hfront)
    · obtain ⟨rfl, hlast⟩ : front = [a] ∧ [e] = [b] := by
        have : front.length = 1 := by
          have := congrArg List.length heq
          simp at this
          omega
        exact List.append_inj' (by simpa using heq.symm) (by simp)
      refine .inr ⟨List.singleton_sublist.mp hfront, ?_⟩
      simpa using hlast.symm
  · rintro (h | ⟨ha, rfl⟩)
    · exact h.trans (List.sublist_append_left _ _)
    · exact (List.singleton_sublist.mpr ha).append (List.Sublist.refl [b])

variable {log : List (Entry ι)} {world : World ι} {i j : ι}

omit [DecidableEq ι] in
theorem saw_append (entry : Option (Entry ι)) :
    Saw (log ++ entry.toList) i j ↔
      Saw log i j ∨ .committed j ∈ log ∧ entry = some (.verified i) := by
  unfold Saw
  cases entry with
  | none => simp
  | some e =>
      rw [Option.toList_some, pair_sublist_concat, Option.some_inj]
      exact or_congr_right (and_congr_right fun _ => eq_comm)

theorem Inv.quiet {world' : World ι} (h : Inv log world)
    (hsections : world'.sections = world.sections)
    (hlocked : world'.locked = world.locked) (hphases : world'.phases = world.phases) :
    Inv log world' := by
  obtain ⟨corpus', others', sections', locked', phases'⟩ := world'
  obtain rfl : sections' = world.sections := hsections
  obtain rfl : locked' = world.locked := hlocked
  obtain rfl : phases' = world.phases := hphases
  exact ⟨h.locks, h.held, h.known, h.owned, h.whole, h.closed, h.logged, h.sure, h.apart⟩

/-- The phases after a call has changed its own. -/
theorem World.put_phases (world : World ι) (i : ι) (phase : Phase ι) (j : ι) :
    (world.put i phase).phases j = if j = i then phase else world.phases j :=
  Function.update_apply _ _ _ _

theorem Inv.opening (corpus : Corpus) (others : Nat) :
    Inv [] (World.opening corpus others : World ι) where
  locks := by simp [World.opening, Phase.deleted]
  held := by simp [World.opening, Phase.deleted]
  known := by simp [World.opening, Phase.snapshot, Phase.deleted]
  owned := by simp [World.opening]
  whole := by simp [World.opening, Phase.published]
  closed := by simp [World.opening]
  logged := by simp [World.opening, Phase.published]
  sure := by simp [World.opening]
  apart := by simp [World.opening]

theorem published_put (world : World ι) (phase : Phase ι)
    (hbefore : (world.phases i).published = none) (hafter : phase.published = none) (j : ι) :
    ((world.put i phase).phases j).published = (world.phases j).published := by
  rw [World.put_phases]
  split_ifs with hj
  · rw [hafter, hj, hbefore]
  · rfl

/-- A call goes on with the rows that it has deleted and sees as before. -/
theorem Inv.goesOn {entry : Option (Entry ι)} {phase : Phase ι} (h : Inv log world)
    (hdeleted : phase.deleted = (world.phases i).deleted) (hpublished : phase.published = none)
    (hbefore : (world.phases i).published = none)
    (hcommitting : ∀ result deleted vectors, phase ≠ .committing result deleted vectors)
    (hsnapshot : phase.snapshot = (world.phases i).snapshot ∨
      phase.snapshot = world.sections.map (·.id) ∧ (world.phases i).snapshot = [] ∨
      ∃ id, id ∉ world.sections.map (·.id) ∧ (world.phases i).snapshot = id :: phase.snapshot)
    (hentry : ∀ j, entry ≠ some (.committed j) ∧ entry ≠ some (.verified j)) :
    Inv (log ++ entry.toList) (world.put i phase) := by
  have hsame := published_put world phase hbefore hpublished
  have hsaw : ∀ j k, Saw (log ++ entry.toList) j k ↔ Saw log j k := fun j k => by
    rw [saw_append]
    exact or_iff_left fun hnew => (hentry j).2 hnew.2
  have hdeletes : ∀ j, ((world.put i phase).phases j).deleted = (world.phases j).deleted := by
    intro j
    rw [World.put_phases]
    split_ifs with hj
    · rw [hdeleted, hj]
    · rfl
  refine ⟨fun id j => ?_, fun j => ?_, fun j id hid => ?_, fun row hrow => ?_,
    fun j vectors hj => ?_, fun j row hrow row' hrow' howner hid => ?_, fun j => ?_,
    fun j result deleted vectors hj => ?_, fun row hrow row' hrow' hne => ?_⟩
  · rw [hdeletes]
    exact h.locks id j
  · rw [hdeletes]
    exact h.held j
  · rw [hsame]
    rw [World.put_phases] at hid
    split_ifs at hid with hji
    · rcases hsnapshot with hsnapshot | ⟨hsnapshot, -⟩ | ⟨gone, -, hsnapshot⟩
      · exact h.known i id (hsnapshot ▸ hid)
      · rw [hsnapshot] at hid
        obtain ⟨row, hrow, rfl⟩ := List.mem_map.mp hid
        exact h.owned row hrow
      · exact h.known i id (hsnapshot ▸ List.mem_cons_of_mem _ hid)
    · exact h.known j id hid
  · rw [hsame]
    exact h.owned row hrow
  · rw [hsame] at hj
    exact h.whole j vectors hj
  · rw [World.put_phases] at hid ⊢
    split_ifs at hid ⊢ with hji
    · rcases hsnapshot with hsnapshot | ⟨hsnapshot, -⟩ | ⟨gone, hgone, hsnapshot⟩
      · rw [hsnapshot] at hid ⊢
        exact h.closed i row hrow row' hrow' howner hid
      · rw [hsnapshot]
        exact List.mem_map_of_mem hrow'
      · have hkept : row'.id ∈ (world.phases i).snapshot :=
          h.closed i row hrow row' hrow' howner (hsnapshot ▸ List.mem_cons_of_mem _ hid)
        rw [hsnapshot] at hkept
        exact (List.mem_cons.mp hkept).resolve_left fun heq =>
          hgone (heq ▸ List.mem_map_of_mem hrow')
    · exact h.closed j row hrow row' hrow' howner hid
  · rw [hsame, ← h.logged j, List.mem_append, Option.mem_toList]
    exact or_iff_left (hentry j).1
  · intro row hrow
    rw [World.put_phases] at hj
    split_ifs at hj with hji
    · exact absurd hj (hcommitting result deleted vectors)
    · rw [hsaw]
      exact h.sure j result deleted vectors hj row hrow
  · rw [hsaw]
    exact h.apart row hrow row' hrow' hne

/-- The delete takes a row that nobody has deleted. -/
theorem Inv.deletes {vectorCount : Nat} {id : ι × Nat} {remaining deleted : List (ι × Nat)}
    (h : Inv log world) (hphase : world.phases i = .deleting vectorCount (id :: remaining) deleted)
    (hfree : world.locked id = none) (hrow : id ∈ world.sections.map (·.id)) :
    Inv log ({ world with locked := Function.update world.locked id (some i) }.put i
      (.deleting vectorCount remaining (id :: deleted))) := by
  have hbefore : (world.phases i).published = none := by rw [hphase]; rfl
  have hsame := published_put world (.deleting vectorCount remaining (id :: deleted)) hbefore rfl
  have hsnapshot : ∀ id', id' ∈ remaining ++ id :: deleted ↔
      id' ∈ (world.phases i).snapshot := fun id' => by
    rw [hphase]
    simp only [Phase.snapshot, List.mem_append, List.mem_cons]
    tauto
  refine ⟨fun id' j => ?_, fun j id' hid' => ?_, fun j id' hid' => ?_, fun row hrow => ?_,
    fun j vectors hj => ?_, fun j row hrow row' hrow' howner hid' => ?_, fun j => ?_,
    fun j result deleted vectors hj => ?_, h.apart⟩
  · rw [World.put_phases]
    change Function.update world.locked id (some i) id' = some j ↔ _
    rw [Function.update_apply]
    split_ifs with hid hji hji
    · simp [hji, hid, Phase.deleted]
    · have hnot : id ∉ (world.phases j).deleted := fun hmem => by
        have hlock := (h.locks id j).mpr hmem
        rw [hfree] at hlock
        cases hlock
      rw [hid]
      exact iff_of_false (fun heq => hji (Option.some.inj heq).symm) hnot
    · rw [h.locks, hji, hphase]
      simp [Phase.deleted, hid]
    · exact h.locks id' j
  · rw [World.put_phases] at hid'
    split_ifs at hid' with hji
    · rcases List.mem_cons.mp hid' with rfl | hid'
      · exact hrow
      · exact h.held i id' (by rw [hphase]; exact hid')
    · exact h.held j id' hid'
  · have hkept : id' ∈ (world.phases j).snapshot := by
      rw [World.put_phases] at hid'
      split_ifs at hid' with hji
      · rw [hji]
        exact (hsnapshot id').mp hid'
      · exact hid'
    exact (hsame id'.1).symm ▸ h.known j id' hkept
  · exact (hsame row.owner).symm ▸ h.owned row hrow
  · exact h.whole j vectors ((hsame j).symm.trans hj)
  · rw [World.put_phases] at hid' ⊢
    split_ifs at hid' ⊢ with hji
    · exact (hsnapshot _).mpr (h.closed i row hrow row' hrow' howner ((hsnapshot _).mp hid'))
    · exact h.closed j row hrow row' hrow' howner hid'
  · rw [h.logged j]
    exact iff_of_eq (congrArg (· ≠ none) (hsame j).symm)
  · rw [World.put_phases] at hj
    split_ifs at hj with hji
    exact h.sure j result deleted vectors hj

/-- A call that finds its count right has deleted all sections that are there. -/
theorem Inv.verifies {deleted : List (ι × Nat)} {vectors : List VectorRow} {result : Result}
    (h : Inv log world) (hphase : world.phases i = .verifying vectors.length deleted vectors)
    (hvisible : world.visible deleted = []) :
    Inv (log ++ [.verified i]) (world.put i (.committing result deleted vectors)) := by
  have hbefore : (world.phases i).published = none := by rw [hphase]; rfl
  have hsame := published_put world (.committing result deleted vectors) hbefore rfl
  have hall : ∀ row ∈ world.sections, row.id ∈ deleted := fun row hrow => by
    simpa using List.filter_eq_nil_iff.mp hvisible row hrow
  have hsaw : ∀ j k, Saw (log ++ [.verified i]) j k → Saw log j k ∨ j = i := fun j k hnew => by
    rcases (saw_append (some (.verified i))).mp hnew with hnew | ⟨-, heq⟩
    · exact .inl hnew
    · cases heq
      exact .inr rfl
  have hdeletes : ∀ j, ((world.put i (.committing result deleted vectors)).phases j).deleted =
      (world.phases j).deleted := by
    intro j
    rw [World.put_phases]
    split_ifs with hj
    · rw [hj, hphase]
      rfl
    · rfl
  have hsnapshots : ∀ j, ((world.put i (.committing result deleted vectors)).phases j).snapshot =
      (world.phases j).snapshot := by
    intro j
    rw [World.put_phases]
    split_ifs with hj
    · rw [hj, hphase]
      rfl
    · rfl
  refine ⟨fun id j => ?_, fun j => ?_, fun j id hid => ?_, fun row hrow => ?_,
    fun j vectors hj => ?_, fun j => ?_, fun j => ?_, fun j result' deleted' vectors' hj => ?_,
    fun row hrow row' hrow' hne => ?_⟩
  · rw [hdeletes]
    exact h.locks id j
  · rw [hdeletes]
    exact h.held j
  · rw [hsnapshots] at hid
    rw [hsame]
    exact h.known j id hid
  · rw [hsame]
    exact h.owned row hrow
  · rw [hsame] at hj
    exact h.whole j vectors hj
  · rw [hsnapshots]
    exact h.closed j
  · rw [hsame, ← h.logged j, List.mem_append]
    exact or_iff_left (by simp)
  · intro row hrow
    rw [World.put_phases] at hj
    split_ifs at hj with hji
    · cases hj
      exact .inl (hall row hrow)
    · refine (h.sure j result' deleted' vectors' hj row hrow).imp_right fun hnot hnew => ?_
      exact (hsaw j _ hnew).elim hnot hji
  · intro hnew
    rcases hsaw _ _ hnew with hnew | hown
    · exact h.apart row hrow row' hrow' hne hnew
    · have hpublished := h.owned row' hrow'
      rw [hown] at hpublished
      exact hpublished hbefore

theorem released_locks {phase : Phase ι} (h : Inv log world) (hdeleted : phase.deleted = [])
    (id : ι × Nat) (j : ι) : ((world.release i).put i phase).locked id = some j ↔
      id ∈ (((world.release i).put i phase).phases j).deleted := by
  rw [World.put_phases]
  change (if world.locked id = some i then none else world.locked id) = some j ↔ _
  split_ifs with hlocked hji hji
  · simp [hdeleted]
  · refine iff_of_false (by simp) fun hmem => hji ?_
    have hlock := (h.locks id j).mpr hmem
    rw [hlocked] at hlock
    exact (Option.some.inj hlock).symm
  · rw [hji, hdeleted]
    exact iff_of_false hlocked List.not_mem_nil
  · exact h.locks id j

theorem Inv.fails {error : Thrown} (h : Inv log world)
    (hbefore : (world.phases i).published = none) : Inv log (world.fail i error) := by
  have hsame : ∀ j, ((world.fail i error).phases j).published = (world.phases j).published :=
    published_put (world.release i) (.thrown error) hbefore rfl
  have hphases : ∀ j, (world.fail i error).phases j = if j = i then .thrown error
      else world.phases j := World.put_phases (world.release i) i _
  refine ⟨released_locks h rfl, fun j id hid => ?_, fun j id hid => ?_, fun row hrow => ?_,
    fun j vectors hj => ?_, fun j row hrow row' hrow' howner hid => ?_, fun j => ?_,
    fun j result deleted vectors hj => ?_, h.apart⟩
  · rw [hphases] at hid
    split_ifs at hid with hji
    · cases hid
    · exact h.held j id hid
  · rw [hphases] at hid
    rw [hsame]
    split_ifs at hid with hji
    · cases hid
    · exact h.known j id hid
  · rw [hsame]
    exact h.owned row hrow
  · rw [hsame] at hj
    exact h.whole j vectors hj
  · rw [hphases] at hid ⊢
    split_ifs at hid ⊢ with hji
    · cases hid
    · exact h.closed j row hrow row' hrow' howner hid
  · rw [hsame]
    exact h.logged j
  · rw [hphases] at hj
    split_ifs at hj with hji
    exact h.sure j result deleted vectors hj

omit [DecidableEq ι] in
theorem owner_of_mem_generation {vectors : List VectorRow} {row : SectionRow ι}
    (h : row ∈ generation i vectors) : row.owner = i := by
  obtain ⟨place, hplace, rfl⟩ := List.mem_mapIdx.mp h
  rfl

theorem mem_visible {deleted : List (ι × Nat)} {row : SectionRow ι} :
    row ∈ world.visible deleted ↔ row ∈ world.sections ∧ row.id ∉ deleted := by
  simp [World.visible]

/-- A delete that is through has taken all sections of a call or none. -/
theorem Inv.visible_whole {deleted : List (ι × Nat)} (h : Inv log world)
    (hdeleted : (world.phases i).snapshot = deleted) (j : ι) :
    (world.visible deleted).filter (fun row => row.owner = j) = [] ∨
      (world.visible deleted).filter (fun row => row.owner = j) = world.rowsOf j := by
  have hcomm : (world.visible deleted).filter (fun row => row.owner = j) =
      (world.rowsOf j).filter fun row => row.id ∉ deleted := List.filter_comm ..
  rw [hcomm]
  by_cases hsome : ∃ row ∈ world.rowsOf j, row.id ∈ deleted
  · obtain ⟨row, hrow, hid⟩ := hsome
    obtain ⟨hrow, howner⟩ := List.mem_filter.mp hrow
    refine .inl (List.filter_eq_nil_iff.mpr fun row' hrow' => ?_)
    obtain ⟨hrow', howner'⟩ := List.mem_filter.mp hrow'
    have hsame : row.owner = row'.owner :=
      (of_decide_eq_true howner).trans (of_decide_eq_true howner').symm
    have htaken := h.closed i row hrow row' hrow' hsame (hdeleted ▸ hid)
    rw [hdeleted] at htaken
    simpa using htaken
  · refine .inr (List.filter_eq_self.mpr fun row hrow => ?_)
    exact decide_eq_true fun hid => hsome ⟨row, hrow, hid⟩

theorem Inv.commits {result : Result} {deleted : List (ι × Nat)} {vectors : List VectorRow}
    {phase : Phase ι} (h : Inv log world)
    (hphase : world.phases i = .committing result deleted vectors)
    (hafter : phase = .returned result vectors ∨ phase = .unheard vectors) :
    Inv (log ++ [.committed i]) (world.commit i deleted vectors phase) := by
  have hbefore : (world.phases i).published = none := by rw [hphase]; rfl
  have hsnapshot : (world.phases i).snapshot = deleted := by rw [hphase]; rfl
  have hpublished : phase.published = some vectors := by rcases hafter with rfl | rfl <;> rfl
  have hdeleted : phase.deleted = [] := by rcases hafter with rfl | rfl <;> rfl
  have hempty : phase.snapshot = [] := by rcases hafter with rfl | rfl <;> rfl
  have hphases : ∀ j, (world.commit i deleted vectors phase).phases j =
      if j = i then phase else world.phases j := World.put_phases (world.release i) i _
  have hsections : (world.commit i deleted vectors phase).sections =
      world.visible deleted ++ generation i vectors := rfl
  have hunlogged : .committed i ∉ log := fun hlog => (h.logged i).mp hlog hbefore
  have hsaw : ∀ j k, Saw (log ++ [.committed i]) j k → Saw log j k := fun j k hnew =>
    ((saw_append (some (.committed i))).mp hnew).resolve_right fun hlast => by cases hlast.2
  have hfresh : ∀ j, ¬ Saw log j i := fun j hold =>
    hunlogged (hold.subset List.mem_cons_self)
  have hkept : ∀ j, (world.phases j).published ≠ none →
      ((world.commit i deleted vectors phase).phases j).published ≠ none := fun j hj => by
    rw [hphases]
    split_ifs with hji
    · rw [hpublished]
      simp
    · exact hj
  have hother : ∀ row ∈ world.sections, row.owner ≠ i := fun row hrow howner =>
    h.owned row hrow (by rw [howner, hbefore])
  refine ⟨released_locks h hdeleted, fun j id hid => ?_, fun j id hid => ?_, fun row hrow => ?_,
    fun j vectors' hj => ?_, fun j row hrow row' hrow' howner hid => ?_, fun j => ?_,
    fun j result' deleted' vectors' hj row hrow => ?_, fun row hrow row' hrow' hne => ?_⟩
  · rw [hphases] at hid
    split_ifs at hid with hji
    · rw [hdeleted] at hid
      cases hid
    · obtain ⟨row, hrow, rfl⟩ := List.mem_map.mp (h.held j id hid)
      have hnot : row.id ∉ deleted := fun htaken => hji (by
        have hmine : world.locked row.id = some i :=
          (h.locks _ i).mpr (by rw [hphase]; exact htaken)
        have hyours : world.locked row.id = some j := (h.locks _ j).mpr hid
        exact (Option.some.inj (hmine.symm.trans hyours)).symm)
      rw [hsections]
      exact List.mem_map_of_mem (List.mem_append_left _ (mem_visible.mpr ⟨hrow, hnot⟩))
  · rw [hphases] at hid
    split_ifs at hid with hji
    · rw [hempty] at hid
      cases hid
    · exact hkept _ (h.known j id hid)
  · rw [hsections] at hrow
    rcases List.mem_append.mp hrow with hrow | hrow
    · exact hkept _ (h.owned row (mem_visible.mp hrow).1)
    · rw [owner_of_mem_generation hrow, hphases, if_pos rfl, hpublished]
      simp
  · have hsplit : (world.commit i deleted vectors phase).rowsOf j =
        (world.visible deleted).filter (fun row => row.owner = j) ++
          (generation i vectors).filter (fun row => row.owner = j) := List.filter_append _ _
    rw [hphases] at hj
    rw [hsplit]
    split_ifs at hj with hji
    · obtain rfl : vectors' = vectors := Option.some.inj (hj.symm.trans hpublished)
      subst hji
      have hnone : (world.visible deleted).filter (fun row => row.owner = j) = [] :=
        List.filter_eq_nil_iff.mpr fun row hrow => by
          simpa using hother row (mem_visible.mp hrow).1
      have hall : (generation j vectors').filter (fun row => row.owner = j) =
          generation j vectors' := List.filter_eq_self.mpr fun row hrow =>
        decide_eq_true (owner_of_mem_generation hrow)
      rw [hnone, hall]
      exact .inr rfl
    · have hnone : (generation i vectors).filter (fun row => row.owner = j) = [] :=
        List.filter_eq_nil_iff.mpr fun row hrow => by
          rw [owner_of_mem_generation hrow]
          simpa using fun heq : i = j => hji heq.symm
      rw [hnone, List.append_nil]
      rcases h.visible_whole hsnapshot j with hgone | hsame
      · exact .inl hgone
      · rw [hsame]
        exact h.whole j vectors' hj
  · rw [hphases] at hid ⊢
    split_ifs at hid ⊢ with hji
    · rw [hempty] at hid
      cases hid
    · have hknown : row.owner ≠ i := fun heq => h.known j row.id hid (by
        rw [← hbefore, ← heq]
        rfl)
      have hold : ∀ row ∈ (world.commit i deleted vectors phase).sections, row.owner ≠ i →
          row ∈ world.sections := fun row hrow hne => by
        rw [hsections] at hrow
        rcases List.mem_append.mp hrow with hrow | hrow
        · exact (mem_visible.mp hrow).1
        · exact absurd (owner_of_mem_generation hrow) hne
      exact h.closed j row (hold row hrow hknown) row' (hold row' hrow' (howner ▸ hknown)) howner
        hid
  · rw [List.mem_append, List.mem_singleton, h.logged, hphases]
    split_ifs with hji
    · rw [hpublished, hji]
      simp
    · exact or_iff_left fun heq => hji (by cases heq; rfl)
  · rw [hphases] at hj
    split_ifs at hj with hji
    · rcases hafter with rfl | rfl <;> cases hj
    · rw [hsections] at hrow
      rcases List.mem_append.mp hrow with hrow | hrow
      · exact (h.sure j result' deleted' vectors' hj row (mem_visible.mp hrow).1).imp_right
          fun hnot hnew => hnot (hsaw _ _ hnew)
      · rw [owner_of_mem_generation hrow]
        exact .inr fun hnew => hfresh j (hsaw _ _ hnew)
  · intro hnew
    have hseen := hsaw _ _ hnew
    rw [hsections] at hrow hrow'
    rcases List.mem_append.mp hrow with hrow | hrow
    · obtain ⟨hrow, hleft⟩ := mem_visible.mp hrow
      rcases List.mem_append.mp hrow' with hrow' | hrow'
      · exact h.apart row hrow row' (mem_visible.mp hrow').1 hne hseen
      · rw [owner_of_mem_generation hrow'] at hseen
        exact (h.sure i result deleted vectors hphase row hrow).elim hleft fun hnot => hnot hseen
    · rw [owner_of_mem_generation hrow] at hseen
      exact hfresh _ hseen

/-- **Every step keeps the invariant.** -/
theorem inv_step {version : Key} (h : Inv log world) (event : Event ι) :
    Inv (log ++ (world.entry version event).toList) (world.step version event) := by
  cases event with
  | corpusChanges corpus => exact (List.append_nil log).symm ▸ h.quiet rfl rfl rfl
  | othersChange others => exact (List.append_nil log).symm ▸ h.quiet rfl rfl rfl
  | request i fault =>
      have heffect : Effect world i (world.entry version (.request i fault))
          (world.step version (.request i fault)) := step_request fault
      generalize world.entry version (.request i fault) = entry at heffect ⊢
      generalize world.step version (.request i fault) = world' at heffect ⊢
      cases heffect with
      | waits => exact (List.append_nil log).symm ▸ h
      | goesOn hdeleted hpublished hbefore hcommitting hsnapshot hentry haccount =>
          exact h.goesOn hdeleted hpublished hbefore hcommitting hsnapshot hentry
      | deletes hphase hfree hrow =>
          exact (List.append_nil log).symm ▸ h.deletes hphase hfree hrow
      | verifies hphase hvisible hresult => exact h.verifies hphase hvisible
      | commits hphase hafter => exact h.commits hphase hafter
      | fails hbefore => exact (List.append_nil log).symm ▸ h.fails hbefore

omit [DecidableEq ι] in
theorem Account.append {phase : Phase ι} (h : Account log i phase) (more : List (Entry ι)) :
    Account (log ++ more) i phase := by
  cases phase with
  | counting => trivial
  | checking vectorCount => exact Counted.append h more
  | preparing vectorCount => exact Counted.append h more
  | deleting vectorCount remaining deleted => exact Counted.append h more
  | verifying vectorCount deleted vectors =>
      exact ⟨Counted.append h.1 more, List.mem_append_left _ h.2⟩
  | committing result deleted vectors =>
      exact ⟨Counted.append h.1 more, List.mem_append_left _ h.2.1, h.2.2⟩
  | returned result vectors =>
      exact ⟨Counted.append h.1 more, List.mem_append_left _ h.2.1, h.2.2⟩
  | unheard vectors => exact ⟨Counted.append h.1 more, List.mem_append_left _ h.2⟩
  | thrown error => trivial

theorem account_step {version : Key} (h : ∀ i, Account log i (world.phases i)) (event : Event ι)
    (j : ι) : Account (log ++ (world.entry version event).toList) j
      ((world.step version event).phases j) := by
  have hkept := (h j).append (world.entry version event).toList
  cases event with
  | corpusChanges corpus => exact hkept
  | othersChange others => exact hkept
  | request i fault =>
      have heffect : Effect world i (world.entry version (.request i fault))
          (world.step version (.request i fault)) := step_request fault
      generalize world.entry version (.request i fault) = entry at heffect hkept ⊢
      generalize world.step version (.request i fault) = world' at heffect ⊢
      cases heffect with
      | waits => exact hkept
      | goesOn hdeleted hpublished hbefore hcommitting hsnapshot hentry haccount =>
          rw [World.put_phases]
          split_ifs with hji
          · rw [hji]
            exact haccount log (h i)
          · exact hkept
      | deletes hphase hfree hrow =>
          rw [World.put_phases]
          split_ifs with hji
          · have hcounted := h i
            rw [hphase] at hcounted
            rw [hji]
            exact Counted.append hcounted _
          · exact hkept
      | verifies hphase hvisible hresult =>
          rw [World.put_phases]
          split_ifs with hji
          · have hcounted := h i
            rw [hphase] at hcounted
            rw [hji, hresult]
            exact ⟨Counted.append hcounted.1 _, List.mem_append_left _ hcounted.2, rfl, rfl⟩
          · exact hkept
      | @commits result deleted vectors phase hphase hafter =>
          have hphases : (world.commit i deleted vectors phase).phases j =
              if j = i then phase else world.phases j :=
            World.put_phases (world.release i) i _ _
          rw [hphases]
          split_ifs with hji
          · have haccount := (h i).append [.committed i]
            rw [hphase] at haccount
            rw [hji]
            rcases hafter with rfl | rfl
            · exact haccount
            · exact ⟨haccount.1, haccount.2.1⟩
          · exact hkept
      | @fails error hbefore =>
          have hphases : (world.fail i error).phases j =
              if j = i then .thrown error else world.phases j :=
            World.put_phases (world.release i) i _ _
          rw [hphases]
          split_ifs with hji
          · trivial
          · exact hkept

/-! ## One generation -/

/-- The version has the sections of one call, and some. -/
def World.OneGeneration (world : World ι) : Prop :=
  ∃ i vectors, vectors ≠ [] ∧ world.sections = generation i vectors

/-- No call can commit beside the sections that are there. -/
structure Steady (log : List (Entry ι)) (world : World ι) : Prop where
  inv : Inv log world
  accounts : ∀ i, Account log i (world.phases i)
  one : world.OneGeneration
  covered : ∀ i result deleted vectors, world.phases i = .committing result deleted vectors →
    world.visible deleted = []

omit [DecidableEq ι] in
theorem generation_ne_nil {vectors : List VectorRow} (h : vectors ≠ []) :
    generation i vectors ≠ [] := by
  simpa [generation] using h

theorem Inv.sole_committing {deleted deleted' : List (ι × Nat)} (h : Inv log world)
    (hsome : world.sections ≠ []) (hi : deleted = (world.phases i).deleted)
    (hj : deleted' = (world.phases j).deleted) (hvisible : world.visible deleted = [])
    (hvisible' : world.visible deleted' = []) : i = j := by
  obtain ⟨row, rest, hsections⟩ := List.exists_cons_of_ne_nil hsome
  have hrow : row ∈ world.sections := hsections ▸ List.mem_cons_self
  have htaken : row.id ∈ deleted := by simpa using List.filter_eq_nil_iff.mp hvisible row hrow
  have htaken' : row.id ∈ deleted' := by simpa using List.filter_eq_nil_iff.mp hvisible' row hrow
  have hmine : world.locked row.id = some i := (h.locks _ i).mpr (hi ▸ htaken)
  have hyours : world.locked row.id = some j := (h.locks _ j).mpr (hj ▸ htaken')
  exact Option.some.inj (hmine.symm.trans hyours)

theorem steady_step {version : Key} (h : Steady log world) (event : Event ι) :
    Steady (log ++ (world.entry version event).toList) (world.step version event) := by
  refine ⟨inv_step h.inv event, account_step h.accounts event, ?_, ?_⟩
  · cases event with
    | corpusChanges corpus => exact h.one
    | othersChange others => exact h.one
    | request i fault =>
        have heffect : Effect world i (world.entry version (.request i fault))
            (world.step version (.request i fault)) := step_request fault
        generalize world.entry version (.request i fault) = entry at heffect
        generalize world.step version (.request i fault) = world' at heffect ⊢
        cases heffect with
        | waits => exact h.one
        | goesOn => exact h.one
        | deletes => exact h.one
        | verifies => exact h.one
        | fails => exact h.one
        | @commits result deleted vectors phase hphase hafter =>
            have haccount := h.accounts i
            rw [hphase] at haccount
            obtain ⟨⟨counted, -, hlength, hne, -⟩, -⟩ := haccount
            have hsome : vectors ≠ [] := fun heq => hne (by simpa [heq] using hlength)
            refine ⟨i, vectors, hsome, ?_⟩
            change world.visible deleted ++ generation i vectors = _
            rw [h.covered i result deleted vectors hphase, List.nil_append]
  · intro j result deleted vectors hj
    cases event with
    | corpusChanges corpus => exact h.covered j result deleted vectors hj
    | othersChange others => exact h.covered j result deleted vectors hj
    | request i fault =>
        have heffect : Effect world i (world.entry version (.request i fault))
            (world.step version (.request i fault)) := step_request fault
        generalize world.entry version (.request i fault) = entry at heffect
        generalize world.step version (.request i fault) = world' at heffect hj ⊢
        cases heffect with
        | waits => exact h.covered j result deleted vectors hj
        | goesOn hdeleted hpublished hbefore hcommitting =>
            rw [World.put_phases] at hj
            split_ifs at hj with hji
            · exact absurd hj (hcommitting result deleted vectors)
            · exact h.covered j result deleted vectors hj
        | deletes =>
            rw [World.put_phases] at hj
            split_ifs at hj with hji
            exact h.covered j result deleted vectors hj
        | verifies hphase hvisible =>
            rw [World.put_phases] at hj
            split_ifs at hj with hji
            · cases hj
              exact hvisible
            · exact h.covered j result deleted vectors hj
        | @commits result' deleted' vectors' phase hphase hafter =>
            rw [show (world.commit i deleted' vectors' phase).phases j =
              if j = i then phase else world.phases j from
              World.put_phases (world.release i) i _ _] at hj
            split_ifs at hj with hji
            · rcases hafter with rfl | rfl <;> cases hj
            · obtain ⟨k, vectors₀, hne, hsections⟩ := h.one
              have hsome : world.sections ≠ [] := hsections ▸ generation_ne_nil hne
              have hmine : deleted' = (world.phases i).deleted := by rw [hphase]; rfl
              have hyours : deleted = (world.phases j).deleted := by rw [hj]; rfl
              exact absurd (h.inv.sole_committing hsome hyours hmine
                (h.covered j result deleted vectors hj)
                (h.covered i result' deleted' vectors' hphase)) hji
        | @fails error hbefore =>
            rw [show (world.fail i error).phases j =
              if j = i then .thrown error else world.phases j from
              World.put_phases (world.release i) i _ _] at hj
            split_ifs at hj with hji
            exact h.covered j result deleted vectors hj

/-! ## Runs -/

/-- What holds after every run of calls for a version. -/
structure Projected (version : Key) (log : List (Entry ι)) (world : World ι) : Prop where
  /-- Of each call all sections are there or none, and those there are the vectors it inserted. -/
  whole : ∀ i, world.rowsOf i = [] ∨ ∃ vectors, .inserted i vectors ∈ log ∧ .committed i ∈ log ∧
    world.rowsOf i = generation i vectors
  /-- Two calls have sections side by side only if neither saw those of the other. -/
  apart : ∀ row ∈ world.sections, ∀ row' ∈ world.sections, row.owner ≠ row'.owner →
    ¬ Saw log row'.owner row.owner
  /-- A call that returns has inserted as many vectors as it had counted, all of one job. -/
  results : ∀ i result vectors, world.phases i = .returned result vectors →
    Counted log i vectors.length ∧ .inserted i vectors ∈ log ∧
      result.vectorCount = vectors.length ∧ result.sectionCount = vectors.length
  failed : ∀ i error, world.phases i = .thrown error → world.rowsOf i = []
  /-- Once there is one generation and no call about to commit, there is always one. -/
  steady : world.OneGeneration →
    (∀ i result deleted vectors, world.phases i ≠ .committing result deleted vectors) →
    ∀ events, Throughout (World.step version) World.OneGeneration world events

theorem Inv.rowsOf_eq_nil (h : Inv log world) (hi : (world.phases i).published = none) :
    world.rowsOf i = [] := by
  refine List.filter_eq_nil_iff.mpr fun row hrow hmine => h.owned row hrow ?_
  rw [of_decide_eq_true hmine, hi]

omit [DecidableEq ι] in
theorem Account.inserted {phase : Phase ι} {vectors : List VectorRow} (h : Account log i phase)
    (hpublished : phase.published = some vectors) : .inserted i vectors ∈ log := by
  cases phase with
  | returned result vectors' =>
      cases hpublished
      exact h.2.1
  | unheard vectors' =>
      cases hpublished
      exact h.2
  | _ => cases hpublished

theorem throughout_steady {version : Key} (h : Steady log world) (events : List (Event ι)) :
    Throughout (World.step version) World.OneGeneration world events := by
  induction events generalizing log world with
  | nil => exact h.one
  | cons event events ih => exact ⟨h.one, ih (steady_step h event)⟩

/-- **Public sections come in whole generations.**  In every run of calls that project one version,
whatever happens to their requests and to the corpus meanwhile: of each call all sections are there
or none; two calls have sections side by side only if each had counted its own before the other
committed; a result tells the number of vectors inserted, which is that of the one job counted; and
from the first moment with one generation and no call about to commit, readers find one complete
generation at any time. -/
theorem projections_whole (version : Key) (corpus : Corpus) (others : Nat)
    (events : List (Event ι)) :
    Projected version
      (outputs (World.step version) (World.entry version) (World.opening corpus others) events)
      (run (World.step version) (World.opening corpus others) events) := by
  obtain ⟨hinv, haccounts⟩ : Inv (outputs (World.step version) (World.entry version)
      (World.opening corpus others) events)
      (run (World.step version) (World.opening corpus others) events) ∧
      ∀ i, Account (outputs (World.step version) (World.entry version)
        (World.opening corpus others) events) i
        ((run (World.step version) (World.opening corpus others) events).phases i) := by
    have hopening : Inv [] (World.opening corpus others : World ι) ∧
        ∀ i, Account [] i ((World.opening corpus others : World ι).phases i) :=
      ⟨Inv.opening corpus others, fun i => trivial⟩
    exact outputs_invariant (fun log world => Inv log world ∧ ∀ i, Account log i (world.phases i))
      (fun log world event h => ⟨inv_step h.1 event, account_step h.2 event⟩) hopening events
  generalize outputs (World.step version) (World.entry version) (World.opening corpus others)
    events = log at hinv haccounts ⊢
  generalize run (World.step version) (World.opening corpus others) events = world
    at hinv haccounts ⊢
  refine ⟨fun i => ?_, hinv.apart, fun i result vectors hi => ?_, fun i error hi => ?_,
    fun hone hnone => throughout_steady ⟨hinv, haccounts, hone, fun i result deleted vectors hi =>
      absurd hi (hnone i result deleted vectors)⟩⟩
  · cases hpublished : (world.phases i).published with
    | none => exact .inl (hinv.rowsOf_eq_nil hpublished)
    | some vectors =>
        have hcommitted : .committed i ∈ log := (hinv.logged i).mpr (by rw [hpublished]; simp)
        exact (hinv.whole i vectors hpublished).imp_right fun hrows =>
          ⟨vectors, (haccounts i).inserted hpublished, hcommitted, hrows⟩
  · have haccount := haccounts i
    rw [hi] at haccount
    exact haccount
  · exact hinv.rowsOf_eq_nil (by rw [hi]; rfl)

/-- Two first projections that overlap leave the vectors twice: with no section to delete, neither
waits for the other. -/
theorem first_projections_repeat {version : Key} {corpus : Corpus} (hij : i ≠ j)
    (hsome : corpus.eligible version ≠ []) (hone : (jobsOf (corpus.eligible version)).length = 1) :
    (run (World.step version) (World.opening corpus 0)
      (List.replicate 5 (.request i .none) ++ List.replicate 6 (.request j .none) ++
        [.request i .none])).sections =
      generation j (corpus.eligible version) ++ generation i (corpus.eligible version) := by
  simp [List.replicate, run, World.step, World.proceed, World.opening, World.put, World.visible,
    World.commit, World.release, hsome, hone, hij, hij.symm]

end Invariant

end PublicSections
