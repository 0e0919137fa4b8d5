import InfraGraph.Symbol.Binding

/-!
# Looking names up

What a name leads to has that name: a lookup passes over the symbols of a unit
and takes one, under a test that compares names.  So a symbol is found again
under its own name wherever it was found, which is what a check of a graph
relies on (`SymbolModel.Stable`).

## Main results

* `findLast?_eq_find?` — the last item that passes a test.
* `Binding.keepsNames_model` — a lookup keeps to the name.
* `Binding.stable_model` — symbols are found again.
-/

namespace InfraGraph

/-! ## The last item that passes a test -/

/-- To look from the end is to look through the reverse. -/
theorem findLast?_eq_find? {α : Type} (test : α → Bool) (l : List α) :
    findLast? test l = l.reverse.find? test := by
  induction l with
  | nil => rfl
  | cons a l ih =>
      rw [findLast?, List.reverse_cons, List.find?_append, ih]
      by_cases h : test a = true <;> simp [h]

theorem mem_of_findLast? {α : Type} {test : α → Bool} {l : List α} {a : α}
    (h : findLast? test l = some a) : a ∈ l ∧ test a = true := by
  rw [findLast?_eq_find?] at h
  exact ⟨List.mem_reverse.1 (List.mem_of_find?_eq_some h), List.find?_some h⟩

theorem findLast?_append_cons {α : Type} {test : α → Bool} (before : List α) {a : α}
    {after : List α} (ha : test a = true) (hafter : ∀ b ∈ after, ¬test b = true) :
    findLast? test (before ++ a :: after) = some a := by
  have hnone : after.reverse.find? test = none := by
    rw [List.find?_eq_none]
    intro b hb
    exact hafter b (List.mem_reverse.1 hb)
  rw [findLast?_eq_find?, List.reverse_append, List.reverse_cons, List.append_assoc,
    List.find?_append, hnone]
  simp [ha]

theorem findLast?_isSome_iff {α : Type} {test : α → Bool} {l : List α} :
    (findLast? test l).isSome ↔ ∃ a ∈ l, test a = true := by
  rw [findLast?_eq_find?, List.find?_isSome]
  simp

/-! ## Names -/

namespace SymbolModel

/-- A model in which a symbol found under some name is found again under its
own name at the same node. -/
def Stable (m : SymbolModel) : Prop :=
  ∀ name node symbol, m.lookup name node = some symbol →
    (m.lookup symbol.name node).map (·.id) = some symbol.id

/-- A model in which a name leads to symbols of that name only. -/
def KeepsNames (m : SymbolModel) : Prop :=
  ∀ name node symbol, m.lookup name node = some symbol → symbol.name = name

theorem KeepsNames.stable {m : SymbolModel} (h : m.KeepsNames) : m.Stable := by
  intro name node symbol hlookup
  rw [h name node symbol hlookup, hlookup]
  rfl

end SymbolModel

namespace Binding

variable {b : Binding} {name : String} {s : Symbol}

theorem isVariableOf_iff {loop : LoopId} :
    isVariableOf loop name s = true ↔ s.name = name ∧ ∃ role, s.kind = .loopVariable loop role := by
  unfold isVariableOf
  cases s.kind <;> simp [and_comm]

/-- A variable of a loop is one of its own. -/
theorem kind_of_variableOf? {loop : LoopDescriptor} (h : b.variableOf? name loop = some s) :
    s ∈ b.symbols ∧ s.name = name ∧ ∃ role, s.kind = .loopVariable loop.id role := by
  obtain ⟨hmem, htest⟩ := mem_of_findLast? h
  exact ⟨hmem, isVariableOf_iff.1 htest⟩

/-- A declaration found by its name is no loop variable. -/
theorem kind_of_declarationNamed? (h : b.declarationNamed? name = some s) :
    s ∈ b.symbols ∧ s.name = name ∧ s.kind.isLoopVariable = false := by
  have htest := List.find?_some h
  simp only [Bool.and_eq_true, Bool.not_eq_true', beq_iff_eq] at htest
  exact ⟨List.mem_of_find?_eq_some h, htest.2, htest.1⟩

/-- A lookup finds a variable of the innermost loop that binds the name, or,
if none does, a declaration. -/
theorem lookup_cases {node : SyntaxId} (h : b.lookup name node = some s) :
    (∃ outer loop inner, b.enclosingLoops node = outer ++ loop :: inner ∧
        b.variableOf? name loop = some s ∧ ∀ l ∈ inner, b.variableOf? name l = none) ∨
      b.declarationNamed? name = some s ∧
        ∀ l ∈ b.enclosingLoops node, b.variableOf? name l = none := by
  rw [lookup, Option.or_eq_some_iff] at h
  rcases h with h | ⟨hnone, h⟩
  · obtain ⟨inner, loop, outer, heq, hvariable, hinner⟩ := List.findSome?_eq_some_iff.1 h
    refine .inl ⟨outer.reverse, loop, inner.reverse, ?_, hvariable, ?_⟩
    · rw [← List.reverse_reverse (b.enclosingLoops node), heq]
      simp
    · intro l hl
      exact hinner l (List.mem_reverse.1 hl)
  · refine .inr ⟨h, ?_⟩
    intro l hl
    exact List.findSome?_eq_none_iff.1 hnone l (List.mem_reverse.2 hl)

/-- **A lookup keeps to the name.** -/
theorem name_of_lookup {node : SyntaxId} (h : b.lookup name node = some s) : s.name = name := by
  rcases lookup_cases h with ⟨_, _, _, -, hvariable, -⟩ | ⟨hdeclaration, -⟩
  · exact (kind_of_variableOf? hvariable).2.1
  · exact (kind_of_declarationNamed? hdeclaration).2.1

/-- What a lookup finds is a symbol of the unit. -/
theorem mem_symbols_of_lookup {node : SyntaxId} (h : b.lookup name node = some s) :
    s ∈ b.symbols := by
  rcases lookup_cases h with ⟨_, _, _, -, hvariable, -⟩ | ⟨hdeclaration, -⟩
  · exact (kind_of_variableOf? hvariable).1
  · exact (kind_of_declarationNamed? hdeclaration).1

theorem mem_symbols_of_resolve {e : Expr} (h : b.scoping.resolve e = some s) : s ∈ b.symbols := by
  obtain ⟨_, -, hlookup⟩ := Option.bind_eq_some_iff.1 h
  exact mem_symbols_of_lookup hlookup

theorem keepsNames_model (b : Binding) : b.model.KeepsNames :=
  fun _ _ _ => name_of_lookup

/-- What a bound unit finds, it finds again. -/
theorem stable_model (b : Binding) : b.model.Stable :=
  b.keepsNames_model.stable

end Binding

end InfraGraph
