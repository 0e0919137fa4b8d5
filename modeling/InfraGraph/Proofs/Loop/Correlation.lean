import Mathlib.Data.List.Forall2
import Mathlib.Order.Bounds.Basic
import InfraGraph.Loop.Correlation

/-!
# What correlation decides

`correlate` gives every loop of a target an index.  This file says which one,
for any relation between loops whatever, without symmetry or transitivity.

The implicit levels come from a greedy search: each loop of the target takes
the first loop of the site that fits.  That greed loses nothing is one fact,
`embedsIn_cons_iff`: if the target can be found in the site at all, it can be
found with its outermost loop at the first place that fits.  The brackets are
an equation about `assignLevels`: the outcomes are those of the scopes, then
those of the brackets, then nothing.

## Main results

* `embedsIn_take_iff` — a prefix of the target is found in the site exactly if
  it is no longer than `matchedLength`.
* `length_implicitScopes` — the search from the inside finds a loop for every
  level the search from the outside counted.
* `assignLevels_outcomes` — all outcomes, in order.
* `correlate_levels` — the context of a reference, level by level.
-/

namespace InfraGraph

section

variable {same : LoopDescriptor → LoopDescriptor → Bool}

/-! ## Finding a target in a site -/

/-- The loops of the target are found in the site in order, though not
necessarily next to one another. -/
abbrev EmbedsIn (same : LoopDescriptor → LoopDescriptor → Bool)
    (target site : List LoopDescriptor) : Prop :=
  List.SublistForall₂ (fun t s => same s t = true) target site

theorem siteFrom_cons_of_same {t s : LoopDescriptor} {site : List LoopDescriptor}
    (h : same s t = true) : siteFrom same t (s :: site) = s :: site := by
  simp [siteFrom, h]

theorem siteFrom_cons_of_not_same {t s : LoopDescriptor} {site : List LoopDescriptor}
    (h : ¬same s t = true) : siteFrom same t (s :: site) = siteFrom same t site := by
  simp [siteFrom, h]

/-- What the search for a loop finds, and what it passes on the way. -/
theorem siteFrom_eq_cons {t s : LoopDescriptor} {site rest : List LoopDescriptor}
    (h : siteFrom same t site = s :: rest) :
    ∃ passed, site = passed ++ s :: rest ∧ same s t = true ∧
      ∀ v ∈ passed, ¬same v t = true := by
  induction site with
  | nil => simp [siteFrom] at h
  | cons a site ih =>
      by_cases ha : same a t = true
      · rw [siteFrom_cons_of_same ha] at h
        obtain ⟨rfl, rfl⟩ := List.cons.inj h
        exact ⟨[], rfl, ha, by simp⟩
      · rw [siteFrom_cons_of_not_same ha] at h
        obtain ⟨passed, rfl, hs, hpassed⟩ := ih h
        refine ⟨a :: passed, rfl, hs, ?_⟩
        intro v hv
        rcases List.mem_cons.1 hv with rfl | hv
        · exact ha
        · exact hpassed v hv

/-- Leaving out the outermost loop of the target keeps it findable. -/
theorem EmbedsIn.tail {t : LoopDescriptor} {target site : List LoopDescriptor}
    (h : EmbedsIn same (t :: target) site) : EmbedsIn same target site := by
  induction site with
  | nil => cases h
  | cons a site ih =>
      cases h with
      | cons _ h => exact .cons_right h
      | cons_right h => exact .cons_right (ih h)

/-- **Greed loses nothing**: the outermost loop of the target may always be
taken at the first place of the site that fits. -/
theorem embedsIn_cons_iff {t : LoopDescriptor} {target site : List LoopDescriptor} :
    EmbedsIn same (t :: target) site ↔
      ∃ s rest, siteFrom same t site = s :: rest ∧ EmbedsIn same target rest := by
  induction site with
  | nil =>
      constructor
      · intro h
        cases h
      · rintro ⟨s, rest, h, -⟩
        simp [siteFrom] at h
  | cons a site ih =>
      by_cases ha : same a t = true
      · rw [siteFrom_cons_of_same ha]
        constructor
        · intro h
          refine ⟨a, site, rfl, ?_⟩
          cases h with
          | cons _ h => exact h
          | cons_right h => exact EmbedsIn.tail h
        · rintro ⟨s, rest, heq, h⟩
          obtain ⟨rfl, rfl⟩ := List.cons.inj heq
          exact .cons ha h
      · rw [siteFrom_cons_of_not_same ha, ← ih]
        constructor
        · intro h
          cases h with
          | cons hs _ => exact absurd hs ha
          | cons_right h => exact h
        · exact .cons_right

theorem matchedLength_cons (t : LoopDescriptor) (target site : List LoopDescriptor) :
    matchedLength same (t :: target) site =
      match siteFrom same t site with
      | [] => 0
      | _ :: rest => matchedLength same target rest + 1 := rfl

theorem matchedLength_le (target site : List LoopDescriptor) :
    matchedLength same target site ≤ target.length := by
  induction target generalizing site with
  | nil => exact Nat.le_refl 0
  | cons t target ih =>
      rw [matchedLength_cons]
      split
      · exact Nat.zero_le _
      · exact Nat.succ_le_succ (ih _)

/-- A prefix of the target is found in the site exactly if it is no longer
than what the search from the outside counts. -/
theorem embedsIn_take_iff {k : Nat} {target site : List LoopDescriptor}
    (hk : k ≤ target.length) :
    EmbedsIn same (target.take k) site ↔ k ≤ matchedLength same target site := by
  induction target generalizing k site with
  | nil =>
      obtain rfl : k = 0 := Nat.le_zero.1 hk
      exact ⟨fun _ => Nat.zero_le _, fun _ => .nil⟩
  | cons t target ih =>
      cases k with
      | zero => exact ⟨fun _ => Nat.zero_le _, fun _ => .nil⟩
      | succ k =>
          have hk : k ≤ target.length := Nat.le_of_succ_le_succ hk
          rw [List.take_succ_cons, embedsIn_cons_iff, matchedLength_cons]
          cases hfrom : siteFrom same t site with
          | nil => simp
          | cons s rest =>
              rw [show k + 1 ≤ matchedLength same target rest + 1 ↔
                k ≤ matchedLength same target rest from Nat.succ_le_succ_iff, ← ih hk]
              constructor
              · rintro ⟨_, _, heq, h⟩
                obtain ⟨rfl, rfl⟩ := List.cons.inj heq
                exact h
              · intro h
                exact ⟨s, rest, rfl, h⟩

/-- The greatest length of a prefix of the target that is found in the site. -/
theorem isGreatest_matchedLength (target site : List LoopDescriptor) :
    IsGreatest {k | k ≤ target.length ∧ EmbedsIn same (target.take k) site}
      (matchedLength same target site) := by
  have hle : matchedLength same target site ≤ target.length := matchedLength_le target site
  refine ⟨⟨hle, (embedsIn_take_iff hle).2 (Nat.le_refl _)⟩, ?_⟩
  rintro k ⟨hk, h⟩
  exact (embedsIn_take_iff hk).1 h

/-! ## Choosing the loops of the site -/

theorem firstMatches_cons (t : LoopDescriptor) (target site : List LoopDescriptor) :
    firstMatches same (t :: target) site =
      match siteFrom same t site with
      | [] => none
      | s :: rest => (firstMatches same target rest).map (s :: ·) := rfl

theorem firstMatches_of_embedsIn {target site : List LoopDescriptor}
    (h : EmbedsIn same target site) : ∃ found, firstMatches same target site = some found := by
  induction target generalizing site with
  | nil => exact ⟨[], rfl⟩
  | cons t target ih =>
      obtain ⟨s, rest, hfrom, h⟩ := embedsIn_cons_iff.1 h
      obtain ⟨found, hfound⟩ := ih h
      exact ⟨s :: found, by rw [firstMatches_cons, hfrom]; simp [hfound]⟩

/-- The choice read from the inside: every level has the innermost loop that
fits outside the loop of the level after it. -/
inductive Innermost (same : LoopDescriptor → LoopDescriptor → Bool) :
    List LoopDescriptor → List LoopDescriptor → List LoopDescriptor → Prop
  | nil {site} : Innermost same [] site []
  | snoc {target outer scopes inner t s} : Innermost same target outer scopes →
      same s t = true → (∀ v ∈ inner, ¬same v t = true) →
      Innermost same (target ++ [t]) (outer ++ s :: inner) (scopes ++ [s])

theorem Innermost.length_eq {target site scopes : List LoopDescriptor}
    (h : Innermost same target site scopes) : scopes.length = target.length := by
  induction h with
  | nil => rfl
  | snoc _ _ _ ih => simp [ih]

/-- Only loops of the site are chosen. -/
theorem Innermost.subset {target site scopes : List LoopDescriptor}
    (h : Innermost same target site scopes) : scopes ⊆ site := by
  induction h with
  | nil => exact List.nil_subset _
  | snoc _ _ _ ih =>
      intro s hs
      rcases List.mem_append.1 hs with hs | hs
      · exact List.mem_append_left _ (ih hs)
      · obtain rfl := List.mem_singleton.1 hs
        exact List.mem_append_right _ List.mem_cons_self

/-- What is chosen for a level fits, and the levels before it are chosen from
the loops around it. -/
theorem Innermost.split {target site scopes : List LoopDescriptor}
    (h : Innermost same target site scopes) {k : Nat} {t s : LoopDescriptor}
    (ht : target[k]? = some t) (hs : scopes[k]? = some s) :
    ∃ outer inner, site = outer ++ s :: inner ∧ same s t = true ∧
      Innermost same (target.take k) outer (scopes.take k) := by
  induction h with
  | nil => simp at hs
  | @snoc target outer scopes inner t' s' hprev hsame _ ih =>
      have hlength : scopes.length = target.length := hprev.length_eq
      by_cases hk : k < scopes.length
      · rw [List.getElem?_append_left (by omega)] at ht
        rw [List.getElem?_append_left hk] at hs
        obtain ⟨outer', inner', rfl, hst, hinnermost⟩ := ih ht hs
        refine ⟨outer', inner' ++ s' :: inner, by simp, hst, ?_⟩
        rwa [List.take_append_of_le_length (by omega), List.take_append_of_le_length (by omega)]
      · have hlast : k = scopes.length := by
          have hbound := (List.getElem?_eq_some_iff.1 hs).1
          rw [List.length_append, List.length_singleton] at hbound
          omega
        subst hlast
        rw [List.getElem?_append_right (Nat.le_refl _), Nat.sub_self] at hs
        rw [hlength, List.getElem?_append_right (Nat.le_refl _), Nat.sub_self] at ht
        obtain rfl : s' = s := by simpa using hs
        obtain rfl : t' = t := by simpa using ht
        refine ⟨outer, inner, rfl, hsame, ?_⟩
        rwa [List.take_left' rfl, hlength, List.take_left' rfl]

/-- What is chosen for the last level is the innermost loop that fits. -/
theorem Innermost.last {target site scopes : List LoopDescriptor} {t s : LoopDescriptor}
    (h : Innermost same (target ++ [t]) site (scopes ++ [s])) :
    ∃ outer inner, site = outer ++ s :: inner ∧ same s t = true ∧
      ∀ v ∈ inner, ¬same v t = true := by
  generalize htarget : target ++ [t] = target' at h
  generalize hscopes : scopes ++ [s] = scopes' at h
  cases h with
  | nil => simp at htarget
  | @snoc _ outer _ inner t' s' _ hsame hinner =>
      obtain rfl : t = t' := by simpa using (List.append_inj' htarget rfl).2
      obtain rfl : s = s' := by simpa using (List.append_inj' hscopes rfl).2
      exact ⟨outer, inner, rfl, hsame, hinner⟩

theorem innermost_of_firstMatches {target site found : List LoopDescriptor}
    (h : firstMatches same target site = some found) :
    Innermost same target.reverse site.reverse found.reverse := by
  induction target generalizing site found with
  | nil =>
      obtain rfl : [] = found := by simpa [firstMatches] using h
      exact .nil
  | cons t target ih =>
      rw [firstMatches_cons] at h
      cases hfrom : siteFrom same t site with
      | nil => simp [hfrom] at h
      | cons s rest =>
          simp only [hfrom, Option.map_eq_some_iff] at h
          obtain ⟨found, hfound, rfl⟩ := h
          obtain ⟨passed, rfl, hs, hpassed⟩ := siteFrom_eq_cons hfrom
          have hsite : (passed ++ s :: rest).reverse = rest.reverse ++ s :: passed.reverse := by
            simp
          rw [hsite, List.reverse_cons, List.reverse_cons]
          refine .snoc (ih hfound) hs ?_
          intro v hv
          exact hpassed v (List.mem_reverse.1 hv)

theorem EmbedsIn.reverse {target site : List LoopDescriptor} (h : EmbedsIn same target site) :
    EmbedsIn same target.reverse site.reverse := by
  obtain ⟨found, hfound, hsub⟩ := List.sublistForall₂_iff.1 h
  exact List.sublistForall₂_iff.2
    ⟨found.reverse, List.forall₂_reverse_iff.2 hfound, hsub.reverse⟩

/-- The search from the inside succeeds on what the search from the outside
counted. -/
theorem innermost_implicitScopes (target site : List LoopDescriptor) :
    Innermost same (target.take (matchedLength same target site)) site
      (implicitScopes same target site) := by
  have hfound := (embedsIn_take_iff (matchedLength_le target site)).2
    (Nat.le_refl (matchedLength same target site))
  obtain ⟨found, hmatch⟩ := firstMatches_of_embedsIn hfound.reverse
  have h := innermost_of_firstMatches hmatch
  rw [List.reverse_reverse, List.reverse_reverse] at h
  rw [implicitScopes]
  simpa only [hmatch, Option.getD_some] using h

theorem length_implicitScopes (target site : List LoopDescriptor) :
    (implicitScopes same target site).length = matchedLength same target site := by
  rw [(innermost_implicitScopes target site).length_eq, List.length_take]
  exact Nat.min_eq_left (matchedLength_le target site)

end

/-! ## Giving out the brackets -/

section

variable {α : Type}

/-- The outcome of a level that takes its index from a loop of the site. -/
def IndexOutcome.ofScope (s : LoopDescriptor) : IndexOutcome α :=
  .implicit s.id s.index

/-- The outcome of a level that takes its index from a bracket. -/
def IndexOutcome.ofBracket (b : ExplicitIndex α) : IndexOutcome α :=
  .explicit b.access.id b.index

/-- What a bracket stands for in a context. -/
def ExplicitIndex.pair (b : ExplicitIndex α) : SyntaxId × α :=
  (b.access.id, b.index)

theorem assignLevels_targets (target scopes : List LoopDescriptor)
    (brackets : List (ExplicitIndex α)) :
    (assignLevels target scopes brackets).1.map (·.target) = target.map (·.id) := by
  fun_induction assignLevels target scopes brackets <;> simp_all

/-- All outcomes in order: scopes, then brackets, then nothing. -/
theorem assignLevels_outcomes {target scopes : List LoopDescriptor}
    {brackets : List (ExplicitIndex α)} (h : scopes.length ≤ target.length) :
    (assignLevels target scopes brackets).1.map (·.outcome) =
      scopes.map .ofScope
        ++ ((brackets.take (target.length - scopes.length)).map .ofBracket
          ++ List.replicate (target.length - scopes.length - brackets.length) .unresolved) := by
  fun_induction assignLevels target scopes brackets with
  | case1 scopes brackets =>
      obtain rfl : scopes = [] := List.length_eq_zero_iff.1 (Nat.le_zero.1 h)
      simp
  | case2 t target s scopes brackets levels rest heq ih =>
      have h : scopes.length ≤ target.length := Nat.le_of_succ_le_succ h
      have ih := ih h
      rw [heq] at ih
      simp [ih, IndexOutcome.ofScope]
  | case3 t target b brackets levels rest heq ih =>
      have ih := ih (Nat.zero_le _)
      rw [heq] at ih
      simp [ih, IndexOutcome.ofBracket]
  | case4 t target levels rest heq ih =>
      have ih := ih (Nat.zero_le _)
      rw [heq] at ih
      simp [ih, List.replicate_succ]

/-- The brackets that are left are the last ones. -/
theorem assignLevels_rest {target scopes : List LoopDescriptor}
    {brackets : List (ExplicitIndex α)} (h : scopes.length ≤ target.length) :
    (assignLevels target scopes brackets).2 =
      brackets.drop (target.length - scopes.length) := by
  fun_induction assignLevels target scopes brackets with
  | case1 scopes brackets => simp
  | case2 t target s scopes brackets levels rest heq ih =>
      have ih := ih (Nat.le_of_succ_le_succ h)
      rw [heq] at ih
      simpa using ih
  | case3 t target b brackets levels rest heq ih =>
      have ih := ih (Nat.zero_le _)
      rw [heq] at ih
      simpa using ih
  | case4 t target levels rest heq ih =>
      have ih := ih (Nat.zero_le _)
      rw [heq] at ih
      simpa using ih

/-- A level takes its index from a loop of the site as long as there are
any. -/
theorem assignLevels_implicit_iff {target scopes : List LoopDescriptor}
    {brackets : List (ExplicitIndex α)} {k : Nat} {level : IndexLevel α} :
    ((assignLevels target scopes brackets).1[k]? = some level ∧
        level.outcome.kind = .implicit) ↔
      ∃ t s, target[k]? = some t ∧ scopes[k]? = some s ∧ level = ⟨t.id, .ofScope s⟩ := by
  fun_induction assignLevels target scopes brackets generalizing k with
  | case1 scopes brackets => simp
  | case2 t target s scopes brackets levels rest heq ih =>
      rw [heq] at ih
      cases k with
      | succ k => exact ih
      | zero =>
          simp only [List.getElem?_cons_zero, Option.some.injEq]
          constructor
          · rintro ⟨rfl, -⟩
            exact ⟨t, s, rfl, rfl, rfl⟩
          · rintro ⟨_, _, rfl, rfl, rfl⟩
            exact ⟨rfl, rfl⟩
  | case3 t target b brackets levels rest heq ih =>
      rw [heq] at ih
      cases k with
      | succ k => simpa using ih (k := k)
      | zero =>
          -- A bracket is taken only where no loop is left.
          constructor
          · rintro ⟨hlevel, hkind⟩
            obtain rfl := Option.some.inj hlevel
            cases hkind
          · rintro ⟨_, _, -, hs, -⟩
            cases hs
  | case4 t target levels rest heq ih =>
      rw [heq] at ih
      cases k with
      | succ k => simpa using ih (k := k)
      | zero =>
          constructor
          · rintro ⟨hlevel, hkind⟩
            obtain rfl := Option.some.inj hlevel
            cases hkind
          · rintro ⟨_, _, -, hs, -⟩
            cases hs

/-! ## The context of a reference -/

/-- The brackets that some outcomes use, in order. -/
theorem brackets_eq (context : IndexContext α) :
    context.brackets = (context.levels.map (·.outcome)).filterMap IndexContext.bracket? := by
  rw [List.filterMap_map]
  rfl

theorem filterMap_bracket_ofScope (scopes : List LoopDescriptor) :
    (scopes.map (@IndexOutcome.ofScope α)).filterMap IndexContext.bracket? = [] := by
  rw [List.filterMap_map, List.filterMap_eq_nil_iff]
  intro s _
  rfl

theorem filterMap_bracket_ofBracket (brackets : List (ExplicitIndex α)) :
    (brackets.map IndexOutcome.ofBracket).filterMap IndexContext.bracket? =
      brackets.map ExplicitIndex.pair := by
  rw [List.filterMap_map]
  exact congrFun List.filterMap_eq_map brackets

theorem filterMap_bracket_unresolved (n : Nat) :
    (List.replicate n (@IndexOutcome.unresolved α)).filterMap IndexContext.bracket? = [] := by
  rw [List.filterMap_eq_nil_iff]
  intro outcome houtcome
  obtain rfl := List.eq_of_mem_replicate houtcome
  rfl

variable {same : LoopDescriptor → LoopDescriptor → Bool}

/-- The loops of the site that `correlate` takes: none if there is a bracket
for every loop of the target. -/
def scopesFor (same : LoopDescriptor → LoopDescriptor → Bool)
    (target site : List LoopDescriptor) (brackets : List (ExplicitIndex α)) :
    List LoopDescriptor :=
  if target.length ≤ brackets.length then [] else implicitScopes same target site

theorem length_scopesFor_le (target site : List LoopDescriptor)
    (brackets : List (ExplicitIndex α)) :
    (scopesFor same target site brackets).length ≤ target.length := by
  unfold scopesFor
  split
  · exact Nat.zero_le _
  · rw [length_implicitScopes]
    exact matchedLength_le target site

theorem correlate_nil (site : List LoopDescriptor) (brackets : List (ExplicitIndex α)) :
    correlate same [] site brackets = (none, brackets) := rfl

theorem correlate_of_ne_nil {target : List LoopDescriptor} (h : target ≠ [])
    (site : List LoopDescriptor) (brackets : List (ExplicitIndex α)) :
    correlate same target site brackets =
      (some ⟨(assignLevels target (scopesFor same target site brackets) brackets).1⟩,
        (assignLevels target (scopesFor same target site brackets) brackets).2) := by
  cases target with
  | nil => exact absurd rfl h
  | cons t target => rfl

/-- How the loops of a target are indexed from a site with brackets at hand:
`context` says it level by level, and `rest` is what is left of the brackets. -/
structure Indexes (same : LoopDescriptor → LoopDescriptor → Bool)
    (target site : List LoopDescriptor) (brackets : List (ExplicitIndex α))
    (context : IndexContext α) (rest : List (ExplicitIndex α)) : Prop where
  /-- One level for every loop of the target, in order. -/
  targets : context.levels.map (·.target) = target.map (·.id)
  /-- With a bracket for every loop, every level is explicit. -/
  addressed : target.length ≤ brackets.length →
    ∀ level ∈ context.levels, level.outcome.kind = .explicit
  /-- Otherwise the levels are implicit as far as the target is found in the
  site, then explicit as far as there are brackets, then unresolved. -/
  found : brackets.length < target.length →
    ∃ k, IsGreatest {k | k ≤ target.length ∧ EmbedsIn same (target.take k) site} k ∧
      context.levels.map (·.outcome.kind) =
        List.replicate k .implicit
          ++ (List.replicate (min (target.length - k) brackets.length) .explicit
            ++ List.replicate (target.length - k - brackets.length) .unresolved)
  /-- A level is unresolved only if no bracket is left. -/
  exhausted : (∃ level ∈ context.levels, level.outcome.kind = .unresolved) → rest = []
  /-- No bracket is lost, doubled or moved. -/
  conserved : context.brackets ++ rest.map ExplicitIndex.pair =
    brackets.map ExplicitIndex.pair
  /-- What is left is left as it was. -/
  suffix : rest <:+ brackets

/-- The kinds of the levels that `assignLevels` gives. -/
theorem assignLevels_kinds {target scopes : List LoopDescriptor}
    {brackets : List (ExplicitIndex α)} (h : scopes.length ≤ target.length) :
    (assignLevels target scopes brackets).1.map (·.outcome.kind) =
      List.replicate scopes.length .implicit
        ++ (List.replicate (min (target.length - scopes.length) brackets.length) .explicit
          ++ List.replicate (target.length - scopes.length - brackets.length) .unresolved) := by
  have hscope : IndexOutcome.kind ∘ @IndexOutcome.ofScope α = fun _ => .implicit := rfl
  have hbracket : IndexOutcome.kind ∘ @IndexOutcome.ofBracket α = fun _ => .explicit := rfl
  have hmap : (fun l : IndexLevel α => l.outcome.kind) = IndexOutcome.kind ∘ (·.outcome) := rfl
  rw [hmap, ← List.map_map, assignLevels_outcomes h, List.map_append, List.map_append,
    List.map_map, List.map_map, hscope, hbracket, List.map_const', List.map_const',
    List.length_take, List.map_replicate]
  rfl

/-- Levels and brackets of `assignLevels` account for every bracket. -/
theorem assignLevels_conserved {target scopes : List LoopDescriptor}
    {brackets : List (ExplicitIndex α)} (h : scopes.length ≤ target.length) :
    (⟨(assignLevels target scopes brackets).1⟩ : IndexContext α).brackets
        ++ (assignLevels target scopes brackets).2.map ExplicitIndex.pair =
      brackets.map ExplicitIndex.pair := by
  rw [brackets_eq, assignLevels_outcomes h, assignLevels_rest h, List.filterMap_append,
    List.filterMap_append, filterMap_bracket_ofScope, filterMap_bracket_ofBracket,
    filterMap_bracket_unresolved, List.nil_append, List.append_nil, ← List.map_append,
    List.take_append_drop]

/-- The context that `correlate` gives to a looped target. -/
theorem indexes_assignLevels (target site : List LoopDescriptor)
    (brackets : List (ExplicitIndex α)) :
    Indexes same target site brackets
      ⟨(assignLevels target (scopesFor same target site brackets) brackets).1⟩
      (assignLevels target (scopesFor same target site brackets) brackets).2 := by
  have hle : (scopesFor same target site brackets).length ≤ target.length :=
    length_scopesFor_le target site brackets
  have hkinds : (assignLevels target (scopesFor same target site brackets) brackets).1.map
      (·.outcome.kind) = _ := assignLevels_kinds hle
  refine
    { targets := assignLevels_targets _ _ _
      addressed := ?_
      found := ?_
      exhausted := ?_
      conserved := assignLevels_conserved hle
      suffix := assignLevels_rest hle ▸ List.drop_suffix _ _ }
  · intro hfull level hlevel
    have hmem := List.mem_map_of_mem (f := fun l : IndexLevel α => l.outcome.kind) hlevel
    rw [hkinds] at hmem
    have hzero : target.length - brackets.length = 0 := by omega
    simp only [scopesFor, if_pos hfull, List.length_nil, Nat.sub_zero, hzero, List.replicate_zero,
      List.nil_append, List.append_nil] at hmem
    exact List.eq_of_mem_replicate hmem
  · intro hfew
    refine ⟨matchedLength same target site, isGreatest_matchedLength target site, ?_⟩
    have hscopes : scopesFor same target site brackets = implicitScopes same target site := by
      rw [scopesFor, if_neg (Nat.not_le.2 hfew)]
    rw [hkinds, hscopes, length_implicitScopes]
  · rintro ⟨level, hlevel, hkind⟩
    have hmem := List.mem_map_of_mem (f := fun l : IndexLevel α => l.outcome.kind) hlevel
    rw [hkinds, hkind] at hmem
    have hpos : target.length - (scopesFor same target site brackets).length
        - brackets.length ≠ 0 := by
      simpa [List.mem_replicate] using hmem
    rw [assignLevels_rest hle]
    exact List.drop_eq_nil_of_le (by omega)

theorem indexes_of_correlate {target site : List LoopDescriptor}
    {brackets rest : List (ExplicitIndex α)} {context : IndexContext α}
    (h : correlate same target site brackets = (some context, rest)) :
    Indexes same target site brackets context rest := by
  by_cases htarget : target = []
  · subst htarget
    simp [correlate_nil] at h
  · rw [correlate_of_ne_nil htarget] at h
    obtain ⟨hcontext, rfl⟩ := Prod.mk.inj h
    obtain rfl := Option.some.inj hcontext
    exact indexes_assignLevels target site brackets

/-- A level is implicit exactly if a loop of the site was taken for it. -/
theorem implicit_level_iff {target site : List LoopDescriptor}
    {brackets rest : List (ExplicitIndex α)} {context : IndexContext α}
    (h : correlate same target site brackets = (some context, rest)) {k : Nat}
    {level : IndexLevel α} :
    (context.levels[k]? = some level ∧ level.outcome.kind = .implicit) ↔
      ∃ t s, target[k]? = some t ∧ (scopesFor same target site brackets)[k]? = some s ∧
        level = ⟨t.id, .ofScope s⟩ := by
  have htarget : target ≠ [] := by
    rintro rfl
    simp [correlate_nil] at h
  rw [correlate_of_ne_nil htarget] at h
  obtain ⟨hcontext, -⟩ := Prod.mk.inj h
  obtain rfl := Option.some.inj hcontext
  exact assignLevels_implicit_iff

theorem eq_nil_of_correlate {target site : List LoopDescriptor}
    {brackets rest : List (ExplicitIndex α)}
    (h : correlate same target site brackets = (none, rest)) :
    target = [] ∧ rest = brackets := by
  by_cases htarget : target = []
  · subst htarget
    exact ⟨rfl, (congrArg Prod.snd h).symm⟩
  · simp [correlate_of_ne_nil htarget] at h

/-- Whether there is a context or not, every bracket is used or left. -/
theorem conserved_of_correlate {target site : List LoopDescriptor}
    {brackets rest : List (ExplicitIndex α)} {context : Option (IndexContext α)}
    (h : correlate same target site brackets = (context, rest)) :
    (context.map IndexContext.brackets).getD [] ++ rest.map ExplicitIndex.pair =
      brackets.map ExplicitIndex.pair := by
  cases context with
  | none =>
      obtain ⟨-, rfl⟩ := eq_nil_of_correlate h
      rfl
  | some context => exact (indexes_of_correlate h).conserved

theorem suffix_of_correlate {target site : List LoopDescriptor}
    {brackets rest : List (ExplicitIndex α)} {context : Option (IndexContext α)}
    (h : correlate same target site brackets = (context, rest)) : rest <:+ brackets := by
  cases context with
  | none =>
      obtain ⟨-, rfl⟩ := eq_nil_of_correlate h
      exact List.suffix_rfl
  | some context => exact (indexes_of_correlate h).suffix

/-- **What a reference is indexed by.**  There is no context exactly if the
target has no loops, and then the brackets are left as they are; otherwise the
context has one level for every loop, indexed as `Indexes` says. -/
theorem correlate_levels (same : LoopDescriptor → LoopDescriptor → Bool)
    (target site : List LoopDescriptor) (brackets : List (ExplicitIndex α)) :
    ((correlate same target site brackets).1 = none ↔ target = []) ∧
      (target = [] → correlate same target site brackets = (none, brackets)) ∧
      ∀ context rest, correlate same target site brackets = (some context, rest) →
        Indexes same target site brackets context rest := by
  refine ⟨?_, ?_, fun context rest => indexes_of_correlate⟩
  · constructor
    · intro hnone
      by_contra htarget
      simp [correlate_of_ne_nil htarget] at hnone
    · rintro rfl
      exact congrArg Prod.fst (correlate_nil site brackets)
  · rintro rfl
    exact correlate_nil site brackets

/-- Four loops, of which the site has the first two among others, and one
bracket: all three kinds of outcome arise. -/
theorem correlate_levels_of_four_loops :
    let loopAt (n : UInt32) : LoopDescriptor :=
      ⟨⟨⟨n⟩⟩, "x", none, .array ⟨⟨n⟩, default⟩ [], default⟩
    let bracket : ExplicitIndex Nat := ⟨⟨⟨9⟩, default⟩, 0⟩
    ∃ context rest,
      correlate (fun s t => s.id == t.id) ([1, 2, 3, 4].map loopAt) ([1, 7, 2, 8].map loopAt)
          [bracket] = (some context, rest) ∧
        Indexes (fun s t => s.id == t.id) ([1, 2, 3, 4].map loopAt) ([1, 7, 2, 8].map loopAt)
          [bracket] context rest ∧
        context.levels.map (·.outcome.kind) = [.implicit, .implicit, .explicit, .unresolved] :=
  ⟨_, _, rfl, (correlate_levels _ _ _ _).2.2 _ _ rfl, by decide⟩

end

end InfraGraph
