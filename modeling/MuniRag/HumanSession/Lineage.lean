import MuniRag.HumanSession.Constraints
import MuniRag.Lib.Chains

/-!
# Lineages of sessions

A session and its replacements.  The functions keep the sessions in chains whose
newest end is the only place where anything happens: `rotate_human_session` sets
the replacement on top of a session that is not revoked, which can only be the
newest one, and `revoke_human_session` ends a chain there.
-/

namespace HumanSession

open Chains

/-- `new` is the replacement of `old`: the old session is revoked and names the
new one, which has the next generation and the same owner. -/
structure Succeeds (new old : SessionRow) : Prop where
  revoked : old.revokedAt ≠ none
  named : old.replacedBySessionId = some new.id
  generation : new.generation = old.generation + 1
  tenant : new.tenantId = old.tenantId
  principal : new.principalId = old.principalId
  subject : new.humanSubjectId = old.humanSubjectId

/-- A lineage, newest session first. -/
structure IsLineage (chain : List SessionRow) : Prop where
  links : IsChain Succeeds (·.generation = 1) chain
  newest : ∀ row ∈ chain.head?, row.replacedBySessionId = none

/-- A lineage without live sessions once one of its tokens was ended. -/
structure Closes (ended : Bytes → Prop) (chain : List SessionRow) : Prop where
  lineage : IsLineage chain
  closed : ∀ row ∈ chain, ended row.sessionTokenSha256 → ∀ other ∈ chain, other.revokedAt ≠ none

/-- The sessions are the lineages of the table, each closed once it was ended. -/
def Lineages (ended : Bytes → Prop) (db : Database) : Prop := Splits (Closes ended) db.sessions

variable {host : Host} {db after : Database} {ended : Bytes → Prop} {clock : Instant}
variable {chain : List SessionRow} {row current : SessionRow}

/-- Only the newest session of a lineage can be live. -/
theorem IsLineage.live (h : IsLineage chain) (hrow : row ∈ chain) (hlive : row.revokedAt = none) :
    ∃ rest, chain = row :: rest ∧ ∀ other ∈ rest, other.revokedAt ≠ none := by
  cases chain with
  | nil => cases hrow
  | cons newest rest =>
      have hrevoked : ∀ other ∈ rest, other.revokedAt ≠ none := by
        intro other hother
        obtain ⟨_, _, hlink⟩ := h.links.linked hother
        exact hlink.revoked
      rcases List.mem_cons.mp hrow with rfl | hlater
      · exact ⟨rest, rfl, hrevoked⟩
      · exact absurd hlive (hrevoked row hlater)

theorem Closes.congr (h : Closes ended chain) {more : Bytes → Prop}
    (hmore : ∀ row ∈ chain, more row.sessionTokenSha256 → ended row.sessionTokenSha256) :
    Closes more chain :=
  ⟨h.lineage, fun row hrow hended => h.closed row hrow (hmore row hrow hended)⟩

/-- Rows that a rewrite leaves alone. -/
theorem map_eq_self {f : SessionRow → SessionRow} (h : ∀ other ∈ chain, f other = other) :
    chain.map f = chain :=
  (List.map_congr_left h).trans (List.map_id chain)

/-! ## Opening, replacing and revoking -/

theorem Lineages.insert (h : Lineages ended db)
    (hstored : ∀ token, ended token → ∃ other ∈ db.sessions, other.sessionTokenSha256 = token)
    (hgeneration : row.generation = 1) (hnewest : row.replacedBySessionId = none)
    (hinsert : db.insertSession row = .ok after) : Lineages ended after := by
  obtain ⟨_, _, htoken, rfl⟩ := Database.insertSession_ok.mp hinsert
  refine Splits.add h ⟨⟨hgeneration, fun newest hnewest' => ?_⟩, fun other hother hended => ?_⟩
  · obtain rfl : row = newest := Option.some.inj hnewest'
    exact hnewest
  · obtain rfl := List.mem_singleton.mp hother
    obtain ⟨stored, hmem, hsame⟩ := hstored _ hended
    exact absurd hsame (htoken stored hmem)

theorem Lineages.rotate {input : RotateInput} {inserted : Database} (h : Lineages ended db)
    (hsound : Sound host db)
    (hstored : ∀ token, ended token → ∃ other ∈ db.sessions, other.sessionTokenSha256 = token)
    (hmem : current ∈ db.sessions) (hrotatable : current.rotatable input)
    (hinsert : db.insertSession (current.replacement input) = .ok inserted)
    (hupdate : inserted.updateSessions (·.id = current.id) (·.replaced input) = .ok after) :
    Lineages ended after := by
  obtain ⟨hlive, _, hgeneration⟩ := hrotatable
  obtain ⟨_, hid, htoken, rfl⟩ := Database.insertSession_ok.mp hinsert
  obtain ⟨_, rfl⟩ := Database.updateSessions_ok.mp hupdate
  have hnodup : db.sessions.Nodup := List.Nodup.of_map _ hsound.ids
  have hnew : (current.replacement input).id ≠ current.id := fun hsame => hid current hmem hsame.symm
  have hrows : Table.updateWhere (·.id = current.id) (·.replaced input)
        (db.sessions ++ [current.replacement input]) =
      (db.sessions.map fun row => if row.id = current.id then row.replaced input else row) ++
        [current.replacement input] := by
    rw [Table.updateWhere, List.map_append, List.map_singleton, if_neg hnew]
  -- In a chain of stored rows the rewrite reaches the current session only.
  have hsame : ∀ row ∈ db.sessions, row ≠ current →
      (if row.id = current.id then row.replaced input else row) = row :=
    fun row hrow hne => if_neg fun hid' => hne (hsound.eq_of_id hrow hmem hid')
  rw [Lineages, hrows]
  refine Splits.push h hnodup hmem (fun chain hchain hstoredChain hnot => ?_)
    fun chain hchain hstoredChain hin => ?_
  · rw [map_eq_self fun row hrow => hsame row (hstoredChain row hrow) fun heq => hnot (heq ▸ hrow)]
    exact hchain
  · obtain ⟨rest, rfl, hrest⟩ := hchain.lineage.live hin hlive
    have hmap : (current :: rest).map
        (fun row => if row.id = current.id then row.replaced input else row) =
          current.replaced input :: rest := by
      rw [List.map_cons, if_pos rfl]
      congr 1
      refine map_eq_self fun row hrow => ?_
      refine hsame row (hstoredChain row (List.mem_cons_of_mem _ hrow)) ?_
      rintro rfl
      exact hrest row hrow hlive
    rw [hmap]
    refine ⟨⟨?_, fun newest hnewest => ?_⟩, fun other hother hended => ?_⟩
    · have hreplaced : IsChain Succeeds (·.generation = 1) (current.replaced input :: rest) :=
        hchain.lineage.links.replace (fun hfirst => hfirst) fun x hx =>
          ⟨hx.revoked, hx.named, hx.generation, hx.tenant, hx.principal, hx.subject⟩
      exact hreplaced.push ⟨fun h => (by cases h), rfl, hgeneration, rfl, rfl, rfl⟩
    · obtain rfl : current.replacement input = newest := Option.some.inj hnewest
      rfl
    -- No token of the chain was ended, since its newest session was live.
    · have hopen : ∀ row ∈ current :: rest, ¬ ended row.sessionTokenSha256 :=
        fun row hrow hended => hchain.closed row hrow hended current List.mem_cons_self hlive
      rcases List.mem_cons.mp hother with rfl | hold
      · obtain ⟨stored, hmem', hsameToken⟩ := hstored _ hended
        exact absurd hsameToken (htoken stored hmem')
      · rcases List.mem_cons.mp hold with rfl | hlater
        · exact absurd hended (hopen current List.mem_cons_self)
        · exact absurd hended (hopen other (List.mem_cons_of_mem _ hlater))

theorem Lineages.revoke {token : Bytes} {revokedAt : Instant} (h : Lineages ended db)
    (hsound : Sound host db)
    (hupdate : db.updateSessions (·.revocable clock token revokedAt) (·.revoke revokedAt) =
      .ok after) :
    Lineages (fun other => ended other ∨ (other = token ∧
      ∃ row ∈ db.sessions, row.revocable clock token revokedAt)) after := by
  obtain ⟨_, rfl⟩ := Database.updateSessions_ok.mp hupdate
  refine Splits.map h fun chain hchain hstoredChain => ?_
  by_cases hreached : ∃ row ∈ chain, row.revocable clock token revokedAt
  · obtain ⟨row, hrow, hrevocable⟩ := hreached
    obtain ⟨rest, rfl, hrest⟩ := hchain.lineage.live hrow hrevocable.2.1
    have hmap : (row :: rest).map (fun other =>
        if other.revocable clock token revokedAt then other.revoke revokedAt else other) =
          row.revoke revokedAt :: rest := by
      rw [List.map_cons, if_pos hrevocable]
      congr 1
      exact map_eq_self fun other hother => if_neg fun hlive => hrest other hother hlive.2.1
    rw [hmap]
    refine ⟨⟨hchain.lineage.links.replace (fun hfirst => hfirst) fun x hx =>
      ⟨hx.revoked, hx.named, hx.generation, hx.tenant, hx.principal, hx.subject⟩,
      fun newest hnewest => ?_⟩, fun _ _ _ other hother => ?_⟩
    · obtain rfl : row.revoke revokedAt = newest := Option.some.inj hnewest
      exact hchain.lineage.newest row rfl
    · rcases List.mem_cons.mp hother with rfl | hlater
      · exact nofun
      · exact hrest other hlater
  · have hmap : chain.map (fun other =>
        if other.revocable clock token revokedAt then other.revoke revokedAt else other) = chain :=
      map_eq_self fun other hother => if_neg fun hlive => hreached ⟨other, hother, hlive⟩
    rw [hmap]
    refine hchain.congr fun row hrow hended => ?_
    rcases hended with hold | ⟨htoken, revocable, hmem, hrevocable⟩
    · exact hold
    · have hsame : revocable = row := hsound.eq_of_token hmem (hstoredChain row hrow)
        (hrevocable.1.trans htoken.symm)
      exact absurd ⟨row, hrow, hsame ▸ hrevocable⟩ hreached

end HumanSession
