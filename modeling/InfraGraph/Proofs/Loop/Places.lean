import InfraGraph.Proofs.Loop.Correlation

/-!
# Where a target is found

A target may be found in a site in several ways.  Correlation searches twice:
from the outside, to count how many leading loops of the target are found at
all, and then from the inside, to choose loops for them.  The second search
cannot fail on what the first one counted.

It is the inner loops that an index refers to, so the choice has to be the
innermost one.  That is more than to choose the innermost loop for the last
level: a level that is found further in leaves more room for those around it,
so the choice is best at every level at once.  Nothing is asked of the relation
between loops.

## Main definitions

* `FoundAt` — places of a site at which a target is found.
* `InnermostAt` — loops of a site with their places, of which no others lie
  further in.

## Main results

* `InnermostAt.snoc` — one more level on the inside.
* `implicitScopes_innermost` — correlation takes the innermost loops.
-/

namespace InfraGraph

/-- The loops of a target are found in a site at some places, from the outside
inwards. -/
structure FoundAt (same : LoopDescriptor → LoopDescriptor → Bool)
    (target site : List LoopDescriptor) (places : List Nat) : Prop where
  increasing : places.Pairwise (· < ·)
  /-- One place for every loop of the target, with the same loop there. -/
  level : List.Forall₂ (fun t i => ∃ s, site[i]? = some s ∧ same s t = true) target places

/-- The loops of a site that stand for a target, with their places.  Wherever
else the target is found, no level is found further in. -/
structure InnermostAt (same : LoopDescriptor → LoopDescriptor → Bool)
    (target site scopes : List LoopDescriptor) (places : List Nat) : Prop where
  found : FoundAt same target site places
  scopes : places.map (site[·]?) = scopes.map some
  innermost : ∀ others, FoundAt same target site others → List.Forall₂ (· ≤ ·) others places

section

variable {same : LoopDescriptor → LoopDescriptor → Bool}
  {target site outer inner scopes : List LoopDescriptor} {t s : LoopDescriptor}
  {places : List Nat}

/-! ## Sites that look alike -/

/-- Only what stands at the places matters for where a target is found. -/
theorem FoundAt.congr {site' : List LoopDescriptor} (h : FoundAt same target site places)
    (hsite : ∀ i ∈ places, site'[i]? = site[i]?) : FoundAt same target site' places := by
  refine ⟨h.increasing, ?_⟩
  have hlevel := h.level
  clear h
  induction hlevel with
  | nil => exact .nil
  | cons ht _ ih =>
      obtain ⟨hi, hrest⟩ := List.forall_mem_cons.1 hsite
      exact .cons (hi ▸ ht) (ih hrest)

/-- Loops further in do not matter. -/
theorem FoundAt.append (h : FoundAt same target outer places)
    (hplaces : ∀ i ∈ places, i < outer.length) (inner : List LoopDescriptor) :
    FoundAt same target (outer ++ inner) places := by
  apply h.congr
  intro i hi
  exact List.getElem?_append_left (hplaces i hi)

theorem FoundAt.of_append (h : FoundAt same target (outer ++ inner) places)
    (hplaces : ∀ i ∈ places, i < outer.length) : FoundAt same target outer places := by
  apply h.congr
  intro i hi
  exact (List.getElem?_append_left (hplaces i hi)).symm

theorem FoundAt.lt_length (h : FoundAt same target site places) :
    ∀ i ∈ places, i < site.length := by
  have hlevel := h.level
  clear h
  induction hlevel with
  | nil => exact fun i hi => absurd hi List.not_mem_nil
  | cons ht _ ih =>
      obtain ⟨s, hs, -⟩ := ht
      exact List.forall_mem_cons.2 ⟨(List.getElem?_eq_some_iff.1 hs).1, ih⟩

/-! ## One more level -/

theorem getElem?_length_append (outer inner : List LoopDescriptor) (s : LoopDescriptor) :
    (outer ++ s :: inner)[outer.length]? = some s := by
  rw [List.getElem?_append_right (Nat.le_refl _), Nat.sub_self]
  rfl

/-- The last level is found further in than those before it. -/
theorem FoundAt.of_snoc {others : List Nat} (h : FoundAt same (target ++ [t]) site others) :
    ∃ before j u, others = before ++ [j] ∧ FoundAt same target site before ∧
      (∀ i ∈ before, i < j) ∧ site[j]? = some u ∧ same u t = true := by
  have hreverse := List.forall₂_reverse_iff.2 h.level
  rw [List.reverse_append, List.reverse_singleton, List.singleton_append] at hreverse
  cases hothers : others.reverse with
  | nil =>
      rw [hothers] at hreverse
      cases hreverse
  | cons j before =>
      rw [hothers] at hreverse
      obtain ⟨⟨u, hu, hsame⟩, hbefore⟩ := List.forall₂_cons.1 hreverse
      have hsplit : others = before.reverse ++ [j] := by
        rw [← List.reverse_cons, ← hothers, List.reverse_reverse]
      have hincreasing := h.increasing
      rw [hsplit, List.pairwise_append] at hincreasing
      refine ⟨before.reverse, j, u, hsplit, ⟨hincreasing.1, ?_⟩, ?_, hu, hsame⟩
      · apply List.forall₂_reverse_iff.1
        rw [List.reverse_reverse]
        exact hbefore
      · intro i hi
        exact hincreasing.2.2 i hi j List.mem_cons_self

/-- A target that is found outside of a loop is found with that loop for one
more level. -/
theorem FoundAt.snoc (h : FoundAt same target outer places) (hsame : same s t = true)
    (inner : List LoopDescriptor) :
    FoundAt same (target ++ [t]) (outer ++ s :: inner) (places ++ [outer.length]) := by
  have hplaces := h.lt_length
  constructor
  · rw [List.pairwise_append]
    refine ⟨h.increasing, List.pairwise_singleton _ _, ?_⟩
    intro i hi j hj
    obtain rfl := List.mem_singleton.1 hj
    exact hplaces i hi
  · apply List.rel_append (h.append hplaces _).level
    exact .cons ⟨s, getElem?_length_append outer inner s, hsame⟩ .nil

/-- **One more level on the inside**: with the innermost loop that fits for the
new level, every other way to find the target has that level further out, and
so has the others outside of it. -/
theorem InnermostAt.snoc (h : InnermostAt same target outer scopes places)
    (hsame : same s t = true) (hinner : ∀ v ∈ inner, ¬same v t = true) :
    InnermostAt same (target ++ [t]) (outer ++ s :: inner) (scopes ++ [s])
      (places ++ [outer.length]) := by
  have hfound := h.found.snoc hsame inner
  refine ⟨hfound, ?_, ?_⟩
  · have houter : places.map ((outer ++ s :: inner)[·]?) = places.map (outer[·]?) := by
      apply List.map_congr_left
      intro i hi
      exact List.getElem?_append_left (h.found.lt_length i hi)
    rw [List.map_append, List.map_append, houter, h.scopes, List.map_singleton,
      getElem?_length_append, List.map_singleton]
  · intro others hothers
    obtain ⟨before, j, u, rfl, hbefore, hlt, hu, hut⟩ := hothers.of_snoc
    -- No loop further in than the new one fits.
    have hj : j ≤ outer.length := by
      by_contra hlarge
      rw [List.getElem?_append_right (by omega)] at hu
      obtain ⟨k, hk⟩ : ∃ k, j - outer.length = k + 1 := ⟨j - outer.length - 1, by omega⟩
      rw [hk, List.getElem?_cons_succ] at hu
      exact hinner u (List.mem_of_getElem? hu) hut
    have houter : FoundAt same target outer before := by
      apply hbefore.of_append
      intro i hi
      exact Nat.lt_of_lt_of_le (hlt i hi) hj
    exact List.rel_append (h.innermost before houter) (.cons hj .nil)

/-- What is chosen from the inside lies innermost. -/
theorem Innermost.exists_innermostAt (h : Innermost same target site scopes) :
    ∃ places, InnermostAt same target site scopes places := by
  induction h with
  | nil =>
      refine ⟨[], ⟨.nil, .nil⟩, rfl, ?_⟩
      intro others hothers
      obtain rfl := List.forall₂_nil_left_iff.1 hothers.level
      exact .nil
  | snoc _ hsame hinner ih =>
      obtain ⟨places, hplaces⟩ := ih
      exact ⟨_, hplaces.snoc hsame hinner⟩

end

/-- **Correlation takes the innermost loops.**  As many leading loops of the
target as the search from the outside counts are found by the search from the
inside, so it never comes back with nothing.  The loops it finds stand in the
site one inside the other, each is the same loop as its level, and wherever
else these levels are found in the site, none of them is found further in. -/
theorem implicitScopes_innermost (same : LoopDescriptor → LoopDescriptor → Bool)
    (target site : List LoopDescriptor) :
    let found := target.take (matchedLength same target site)
    firstMatches same found.reverse site.reverse =
        some (implicitScopes same target site).reverse ∧
      (implicitScopes same target site).length = matchedLength same target site ∧
      ∃ places, InnermostAt same found site (implicitScopes same target site) places := by
  intro found
  obtain ⟨scopes, hscopes⟩ := firstMatches_of_embedsIn
    ((embedsIn_take_iff (matchedLength_le target site)).2
      (Nat.le_refl (matchedLength same target site))).reverse
  refine ⟨?_, length_implicitScopes target site,
    (innermost_implicitScopes target site).exists_innermostAt⟩
  rw [implicitScopes, hscopes, Option.getD_some, List.reverse_reverse]

end InfraGraph
