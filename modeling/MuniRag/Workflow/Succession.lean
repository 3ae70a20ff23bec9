import MuniRag.Lib.Acyclic
import MuniRag.Workflow.Database

/-!
# Supersession graphs

What supersession is about, without records and tables: each version is a node
with its procedure, its status, whether it has an approval, and the version that
superseded it.  A step drafts a version, changes one that is in draft or in
review, archives one, or supersedes an approved version by one in review, which
the same step approves.

The invariant holds because a version is pointed to only once it is past review,
and a version past review is never a replacement again.  A replacement has no
successor of its own, so it is a sink when the edge to it is drawn.
-/

namespace Workflow

open Acyclic

structure Node where
  procedureId : Uuid
  status : LifecycleStatus
  approved : Bool
  successor : Option Uuid

abbrev Graph := VersionKey → Option Node

namespace Graph

variable (graph : Graph)

def successor (key : VersionKey) : Option Uuid := (graph key).bind (·.successor)

/-- `v` was superseded by `w`, a version of the same tenant. -/
def Points (v w : VersionKey) : Prop := w.1 = v.1 ∧ graph.successor v = some w.2

/-- **The law of the graph.**  A successor is another version of the procedure,
with an approval; it succeeds one version only; and no chain of successors comes
back. -/
structure Lawful : Prop where
  target : ∀ v w node, graph v = some node → graph.Points v w →
    w ≠ v ∧ ∃ next, graph w = some next ∧ next.procedureId = node.procedureId ∧
      next.approved = true
  single : ∀ u v w, graph.Points u w → graph.Points v w → u = v
  acyclic : IsAcyclic graph.Points

/-- The successor that a step draws was approved by that step. -/
def DrawsApproved (after : Graph) : Prop :=
  ∀ v w, ¬ graph.Points v w → after.Points v w →
    ∃ old new, graph w = some old ∧ after w = some new ∧ old.approved = false ∧ new.approved = true

/-! ## Steps -/

/-- The graph with a node in the place of the one under a key. -/
def put (key : VersionKey) (node : Node) : Graph := Function.update graph key (some node)

/-- A draft of a version that none points to, a change of a version that is not
yet approved or an archival, or a supersession. -/
inductive Move : Graph → Prop
  | stay : Move graph
  | draft (key : VersionKey) (node : Node) (hnode : node.successor = none)
      (hfree : ∀ v, ¬ graph.Points v key) : Move (graph.put key node)
  | change (key : VersionKey) (old new : Node) (hold : graph key = some old)
      (hprocedure : new.procedureId = old.procedureId) (hsuccessor : new.successor = old.successor)
      (happroved : old.approved = true → new.approved = true)
      (hstatus : new.status = .archived ∨ old.status = .draft ∨ old.status = .inReview) :
      Move (graph.put key new)
  | supersede (key replacement : VersionKey) (current superseded old new : Node)
      (hcurrent : graph key = some current) (hold : graph replacement = some old)
      (htenant : replacement.1 = key.1) (hne : replacement ≠ key)
      (hfrom : current.status = .approved) (hreview : old.status = .inReview)
      (hfresh : old.approved = false) (hprocedure : old.procedureId = current.procedureId)
      (hsuperseded : superseded = { current with
        status := .superseded, successor := some replacement.2 })
      (hnew : new = { old with status := .approved, approved := true }) :
      Move ((graph.put replacement new).put key superseded)

variable {graph} {after : Graph} {key other v w : VersionKey} {node old new : Node}

@[simp] theorem put_self : graph.put key node key = some node := Function.update_self ..

theorem put_other (hother : other ≠ key) : graph.put key node other = graph other :=
  Function.update_of_ne hother ..

theorem successor_put :
    (graph.put key node).successor other =
      if other = key then node.successor else graph.successor other := by
  by_cases hother : other = key
  · subst hother
    simp [successor]
  · simp [successor, put_other hother, hother]

theorem points_put :
    (graph.put key node).Points v w ↔
      w.1 = v.1 ∧ (if v = key then node.successor else graph.successor v) = some w.2 := by
  rw [Points, successor_put]

/-- A node put in place of one with the same successor draws and removes
nothing. -/
theorem points_put_same (hold : graph key = some old) (hsuccessor : node.successor = old.successor) :
    (graph.put key node).Points v w ↔ graph.Points v w := by
  rw [points_put, Points]
  by_cases hv : v = key
  · rw [if_pos hv, hsuccessor, hv, successor, hold]
    rfl
  · rw [if_neg hv]

/-! ## The invariant -/

/-- The law, and what keeps it: only superseded and archived versions have a
successor, and what is pointed to is past review. -/
structure Settled (graph : Graph) : Prop where
  lawful : graph.Lawful
  source : ∀ v w node, graph v = some node → graph.Points v w →
    node.status = .superseded ∨ node.status = .archived
  past : ∀ v w node, graph.Points v w → graph w = some node →
    node.status ≠ .draft ∧ node.status ≠ .inReview

theorem points_stored (h : graph.Points v w) : ∃ node, graph v = some node := by
  obtain ⟨_, hsuccessor⟩ := h
  obtain ⟨node, hnode, _⟩ := Option.bind_eq_some_iff.mp hsuccessor
  exact ⟨node, hnode⟩

theorem Settled.draft (h : graph.Settled) (hnode : node.successor = none)
    (hfree : ∀ v, ¬ graph.Points v key) : (graph.put key node).Settled := by
  have hpoints : ∀ v w, (graph.put key node).Points v w → v ≠ key ∧ graph.Points v w := by
    intro v w hvw
    rw [points_put] at hvw
    by_cases hv : v = key
    · rw [if_pos hv, hnode] at hvw
      exact nomatch hvw.2
    · rw [if_neg hv] at hvw
      exact ⟨hv, hvw⟩
  have htarget : ∀ v w, graph.Points v w → w ≠ key := by
    rintro v w hvw rfl
    exact hfree v hvw
  refine ⟨⟨?_, ?_, ?_⟩, ?_, ?_⟩
  · intro v w found hfound hvw
    obtain ⟨hv, hold⟩ := hpoints v w hvw
    rw [put_other hv] at hfound
    rw [put_other (htarget v w hold)]
    exact h.lawful.target v w found hfound hold
  · intro u v w huw hvw
    exact h.lawful.single u v w (hpoints u w huw).2 (hpoints v w hvw).2
  · exact h.lawful.acyclic.mono fun a b hab => (hpoints a b hab).2
  · intro v w found hfound hvw
    obtain ⟨hv, hold⟩ := hpoints v w hvw
    rw [put_other hv] at hfound
    exact h.source v w found hfound hold
  · intro v w found hvw hfound
    obtain ⟨_, hold⟩ := hpoints v w hvw
    rw [put_other (htarget v w hold)] at hfound
    exact h.past v w found hold hfound

theorem Settled.change (h : graph.Settled) (hold : graph key = some old)
    (hprocedure : new.procedureId = old.procedureId) (hsuccessor : new.successor = old.successor)
    (happroved : old.approved = true → new.approved = true)
    (hstatus : new.status = .archived ∨ old.status = .draft ∨ old.status = .inReview) :
    (graph.put key new).Settled := by
  have hpoints : ∀ v w, (graph.put key new).Points v w ↔ graph.Points v w :=
    fun v w => points_put_same hold hsuccessor
  refine ⟨⟨?_, ?_, ?_⟩, ?_, ?_⟩
  · intro v w found hfound hvw
    rw [hpoints] at hvw
    -- The node at either end is the old one as far as the law looks at it.
    obtain ⟨before, hbefore, hsame⟩ : ∃ before, graph v = some before ∧
        before.procedureId = found.procedureId := by
      by_cases hv : v = key
      · subst hv
        rw [put_self] at hfound
        obtain rfl := Option.some.inj hfound
        exact ⟨old, hold, hprocedure.symm⟩
      · rw [put_other hv] at hfound
        exact ⟨found, hfound, rfl⟩
    obtain ⟨hne, next, hnext, hnextProcedure, hnextApproved⟩ :=
      h.lawful.target v w before hbefore hvw
    refine ⟨hne, ?_⟩
    by_cases hw : w = key
    · subst hw
      obtain rfl : old = next := Option.some.inj (hold.symm.trans hnext)
      refine ⟨new, put_self, ?_, happroved hnextApproved⟩
      rw [hprocedure, hnextProcedure, hsame]
    · rw [put_other hw]
      exact ⟨next, hnext, hnextProcedure.trans hsame, hnextApproved⟩
  · intro u v w huw hvw
    exact h.lawful.single u v w ((hpoints u w).mp huw) ((hpoints v w).mp hvw)
  · exact h.lawful.acyclic.mono fun a b hab => (hpoints a b).mp hab
  · intro v w found hfound hvw
    rw [hpoints] at hvw
    by_cases hv : v = key
    · subst hv
      rw [put_self] at hfound
      obtain rfl := Option.some.inj hfound
      have hsource := h.source v w old hold hvw
      rcases hstatus with harchived | hdraft | hreview
      · exact .inr harchived
      · rw [hdraft] at hsource
        exact absurd hsource (by simp)
      · rw [hreview] at hsource
        exact absurd hsource (by simp)
    · rw [put_other hv] at hfound
      exact h.source v w found hfound hvw
  · intro v w found hvw hfound
    rw [hpoints] at hvw
    by_cases hw : w = key
    · subst hw
      rw [put_self] at hfound
      obtain rfl := Option.some.inj hfound
      obtain ⟨hnotDraft, hnotReview⟩ := h.past v w old hvw hold
      rcases hstatus with harchived | hdraft | hreview
      · simp [harchived]
      · exact absurd hdraft hnotDraft
      · exact absurd hreview hnotReview
    · rw [put_other hw] at hfound
      exact h.past v w found hvw hfound

section Supersede

variable {replacement : VersionKey} {current superseded : Node}

/-- The edges after a supersession: the old ones and the new one. -/
theorem Settled.points_supersede (h : graph.Settled) (hcurrent : graph key = some current)
    (hold : graph replacement = some old) (htenant : replacement.1 = key.1)
    (hfrom : current.status = .approved) (hnew : new.successor = old.successor)
    (hsuperseded : superseded.successor = some replacement.2) :
    ((graph.put replacement new).put key superseded).Points v w ↔
      graph.Points v w ∨ (v = key ∧ w = replacement) := by
  have hnone : ¬ graph.Points key w := by
    intro hpoints
    have hsource := h.source key w current hcurrent hpoints
    rw [hfrom] at hsource
    exact absurd hsource (by simp)
  rw [points_put]
  by_cases hv : v = key
  · subst hv
    simp only [if_pos, hsuperseded, Option.some.injEq, hnone, true_and, false_or]
    constructor
    · rintro ⟨htenantOf, hid⟩
      exact Prod.ext (htenantOf.trans htenant.symm) hid.symm
    · rintro rfl
      exact ⟨htenant, rfl⟩
  · simp only [hv, false_and, or_false]
    exact points_put_same hold hnew

theorem Settled.supersede (h : graph.Settled) (hcurrent : graph key = some current)
    (hold : graph replacement = some old) (htenant : replacement.1 = key.1)
    (hne : replacement ≠ key) (hfrom : current.status = .approved)
    (hreview : old.status = .inReview) (hprocedure : old.procedureId = current.procedureId)
    (hsuperseded : superseded = { current with
      status := .superseded, successor := some replacement.2 })
    (hnew : new = { old with status := .approved, approved := true }) :
    ((graph.put replacement new).put key superseded).Settled := by
  have hnewSuccessor : new.successor = old.successor := by rw [hnew]
  have hpoints : ∀ v w, ((graph.put replacement new).put key superseded).Points v w ↔
      graph.Points v w ∨ (v = key ∧ w = replacement) := fun v w =>
    h.points_supersede hcurrent hold htenant hfrom hnewSuccessor (by rw [hsuperseded])
  -- The replacement is in review: nothing points to it and it points to nothing.
  have hunpointed : ∀ v, ¬ graph.Points v replacement :=
    fun v hv => (h.past v replacement old hv hold).2 hreview
  have hsink : ∀ w, ¬ graph.Points replacement w := by
    intro w hw
    have hsource := h.source replacement w old hold hw
    rw [hreview] at hsource
    exact absurd hsource (by simp)
  have hput : ∀ v, v ≠ key → v ≠ replacement →
      ((graph.put replacement new).put key superseded) v = graph v := by
    intro v hv hvr
    rw [put_other hv, put_other hvr]
  have hputReplacement : ((graph.put replacement new).put key superseded) replacement = some new := by
    rw [put_other hne, put_self]
  refine ⟨⟨?_, ?_, ?_⟩, ?_, ?_⟩
  · intro v w found hfound hvw
    rcases (hpoints v w).mp hvw with hedge | ⟨rfl, rfl⟩
    · have hv : v ≠ replacement := by
        rintro rfl
        exact hsink w hedge
      have hwr : w ≠ replacement := by
        rintro rfl
        exact hunpointed v hedge
      have hvk : v ≠ key := by
        rintro rfl
        have hsource := h.source v w current hcurrent hedge
        rw [hfrom] at hsource
        exact absurd hsource (by simp)
      rw [hput v hvk hv] at hfound
      obtain ⟨hwv, next, hnext, hnextProcedure, hnextApproved⟩ :=
        h.lawful.target v w found hfound hedge
      refine ⟨hwv, ?_⟩
      by_cases hwk : w = key
      · subst hwk
        obtain rfl : current = next := Option.some.inj (hcurrent.symm.trans hnext)
        refine ⟨superseded, put_self, ?_, ?_⟩
        · rw [hsuperseded]
          exact hnextProcedure
        · rw [hsuperseded]
          exact hnextApproved
      · rw [hput w hwk hwr]
        exact ⟨next, hnext, hnextProcedure, hnextApproved⟩
    · rw [put_self] at hfound
      obtain rfl := Option.some.inj hfound
      refine ⟨hne, new, hputReplacement, ?_, by rw [hnew]⟩
      rw [hnew, hsuperseded]
      exact hprocedure
  · intro u v w huw hvw
    rcases (hpoints u w).mp huw with hu | ⟨rfl, rfl⟩
    · rcases (hpoints v w).mp hvw with hv | ⟨_, rfl⟩
      · exact h.lawful.single u v w hu hv
      · exact absurd hu (hunpointed u)
    · rcases (hpoints v w).mp hvw with hv | ⟨rfl, _⟩
      · exact absurd hv (hunpointed v)
      · rfl
  · refine h.lawful.acyclic.of_sink (w := replacement) (fun a b hab => ?_) fun b hb => ?_
    · exact ((hpoints a b).mp hab).imp id And.right
    · rcases (hpoints replacement b).mp hb with hedge | ⟨hself, _⟩
      · exact hsink b hedge
      · exact hne hself
  · intro v w found hfound hvw
    rcases (hpoints v w).mp hvw with hedge | ⟨rfl, rfl⟩
    · have hv : v ≠ replacement := by
        rintro rfl
        exact hsink w hedge
      by_cases hvk : v = key
      · subst hvk
        rw [put_self] at hfound
        obtain rfl := Option.some.inj hfound
        exact .inl (by rw [hsuperseded])
      · rw [hput v hvk hv] at hfound
        exact h.source v w found hfound hedge
    · rw [put_self] at hfound
      obtain rfl := Option.some.inj hfound
      exact .inl (by rw [hsuperseded])
  · intro v w found hvw hfound
    by_cases hwk : w = key
    · subst hwk
      rw [put_self] at hfound
      obtain rfl := Option.some.inj hfound
      simp [hsuperseded]
    · by_cases hwr : w = replacement
      · subst hwr
        rw [hputReplacement] at hfound
        obtain rfl := Option.some.inj hfound
        simp [hnew]
      · rw [hput w hwk hwr] at hfound
        rcases (hpoints v w).mp hvw with hedge | ⟨_, hwr'⟩
        · exact h.past v w found hedge hfound
        · exact absurd hwr' hwr

end Supersede

/-- **Step lemma.** -/
theorem Settled.move (h : graph.Settled) (hmove : graph.Move after) :
    after.Settled ∧ graph.DrawsApproved after := by
  cases hmove with
  | stay => exact ⟨h, fun v w hnot hvw => absurd hvw hnot⟩
  | draft key node hnode hfree =>
      refine ⟨h.draft hnode hfree, fun v w hnot hvw => ?_⟩
      rw [points_put] at hvw
      by_cases hv : v = key
      · rw [if_pos hv, hnode] at hvw
        exact nomatch hvw.2
      · rw [if_neg hv] at hvw
        exact absurd hvw hnot
  | change key old new hold hprocedure hsuccessor happroved hstatus =>
      refine ⟨h.change hold hprocedure hsuccessor happroved hstatus, fun v w hnot hvw => ?_⟩
      rw [points_put_same hold hsuccessor] at hvw
      exact absurd hvw hnot
  | supersede key replacement current superseded old new hcurrent hold htenant hne hfrom hreview
      hfresh hprocedure hsuperseded hnew =>
      refine ⟨h.supersede hcurrent hold htenant hne hfrom hreview hprocedure hsuperseded hnew,
        fun v w hnot hvw => ?_⟩
      have hnewSuccessor : new.successor = old.successor := by rw [hnew]
      rcases (h.points_supersede hcurrent hold htenant hfrom hnewSuccessor
        (by rw [hsuperseded])).mp hvw with hedge | ⟨rfl, rfl⟩
      · exact absurd hedge hnot
      · refine ⟨old, new, hold, ?_, hfresh, by rw [hnew]⟩
        rw [put_other hne, put_self]

end Graph

end Workflow
