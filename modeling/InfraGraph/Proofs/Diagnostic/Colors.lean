import InfraGraph.Diagnostic.Render
import InfraGraph.Proofs.Source.Lines

/-!
# Colours of rendered diagnostics

A diagnostic is written in colours by putting terminal sequences between the
pieces of its text.  Whoever deletes the sequences again should be left with the
text that is written without colours.

That needs more than the pieces being the same: a deletion looks at characters,
and could also find a sequence inside a piece, or across the border of two.  A
text is *inert* if a deletion leaves it alone whatever follows it.  Text without
escape characters is inert, and so is an escape character that is not followed
by a bracket; a diagnostic has one of these if its code has it as a letter.

## Main results

* `withoutColors_code` — every colour is a colour sequence.
* `Inert` — texts that no deletion changes, and `inert_of_unescaped`.
* `stripColors_render` — without its colour sequences the coloured form of a
  diagnostic is the plain one.
-/

namespace InfraGraph

/-! ## Deleting colour sequences -/

namespace Text

/-- What follows the colour sequence that a text starts with: the escape
character, a bracket, numbers with semicolons between them, and an `m`. -/
def afterColor? : List Char → Option (List Char)
  | '\x1b' :: '[' :: rest =>
    match rest.dropWhile fun c => c.isDigit || c == ';' with
    | 'm' :: rest => some rest
    | _ => none
  | _ => none

theorem length_of_afterColor? {text rest : List Char} (h : afterColor? text = some rest) :
    rest.length < text.length := by
  rw [afterColor?.eq_def] at h
  split at h
  · next tail =>
      split at h
      · next rest' hdrop =>
          obtain rfl := Option.some.inj h
          have hle := (List.dropWhile_sublist (l := tail) fun c => c.isDigit || c == ';').length_le
          rw [hdrop] at hle
          simp only [List.length_cons] at hle ⊢
          omega
      · cases h
  · cases h

/-- A text without its colour sequences. -/
def withoutColors (text : List Char) : List Char :=
  match text with
  | [] => []
  | c :: rest =>
    match _h : afterColor? (c :: rest) with
    | some after => withoutColors after
    | none => c :: withoutColors rest
termination_by text.length
decreasing_by
  · exact length_of_afterColor? _h
  · exact Nat.lt_succ_self _

/-- A text without its colour sequences. -/
def stripColors (text : String) : String :=
  .ofList (withoutColors text.toList)

@[simp]
theorem withoutColors_nil : withoutColors [] = [] := by
  rw [withoutColors]

theorem withoutColors_of_some {text rest : List Char} (h : afterColor? text = some rest) :
    withoutColors text = withoutColors rest := by
  cases text with
  | nil => cases h
  | cons c text =>
      rw [withoutColors]
      split
      · next after hafter => rw [Option.some.inj (hafter.symm.trans h)]
      · next hafter => exact absurd (hafter.symm.trans h) (by simp)

theorem withoutColors_of_none {c : Char} {rest : List Char} (h : afterColor? (c :: rest) = none) :
    withoutColors (c :: rest) = c :: withoutColors rest := by
  rw [withoutColors]
  split
  · next after hafter => exact absurd (hafter.symm.trans h) (by simp)
  · rfl

/-- Every colour is one colour sequence. -/
theorem withoutColors_code (p : Paint) (rest : List Char) :
    withoutColors (p.code.toList ++ rest) = withoutColors rest := by
  refine withoutColors_of_some ?_
  cases p with
  | level l => cases l <;> rfl
  | frame => rfl
  | reset => rfl

/-! ## Inert texts -/

/-- A text that has no colour sequence in it, nor the start of one that what
follows could complete. -/
def Inert (text : List Char) : Prop :=
  ∀ rest, withoutColors (text ++ rest) = text ++ withoutColors rest

theorem inert_nil : Inert [] :=
  fun _ => rfl

theorem Inert.append {a b : List Char} (ha : Inert a) (hb : Inert b) : Inert (a ++ b) := by
  intro rest
  rw [List.append_assoc, ha, hb, List.append_assoc]

theorem inert_cons {c : Char} (hc : c ≠ '\x1b') {text : List Char} (h : Inert text) :
    Inert (c :: text) := by
  intro rest
  have hnone : afterColor? (c :: (text ++ rest)) = none := by
    rw [afterColor?.eq_def]
    split
    · next heq => exact absurd (List.cons.inj heq).1 hc
    · rfl
  rw [List.cons_append, withoutColors_of_none hnone, h rest, List.cons_append]

/-- An escape character starts nothing unless a bracket follows it. -/
theorem inert_escape {c : Char} (hc : c ≠ '[') {text : List Char} (h : Inert (c :: text)) :
    Inert ('\x1b' :: c :: text) := by
  intro rest
  have hnone : afterColor? ('\x1b' :: c :: (text ++ rest)) = none := by
    rw [afterColor?.eq_def]
    split
    · next heq => exact absurd (List.cons.inj (List.cons.inj heq).2).1 hc
    · rfl
  calc withoutColors ('\x1b' :: c :: (text ++ rest))
      = '\x1b' :: withoutColors (c :: text ++ rest) := withoutColors_of_none hnone
    _ = '\x1b' :: (c :: text ++ withoutColors rest) := by rw [h rest]

/-- Whether a text has no escape character in it. -/
def Unescaped (text : String) : Prop :=
  '\x1b' ∉ text.toList

instance (text : String) : Decidable (Unescaped text) :=
  inferInstanceAs (Decidable ('\x1b' ∉ text.toList))

theorem inert_of_unescaped {text : String} (h : Unescaped text) : Inert text.toList := by
  have hchars (chars : List Char) (hchars : '\x1b' ∉ chars) : Inert chars := by
    induction chars with
    | nil => exact inert_nil
    | cons c chars ih =>
        rw [List.mem_cons, not_or] at hchars
        exact inert_cons (Ne.symm hchars.1) (ih hchars.2)
  exact hchars text.toList h

@[simp]
theorem unescaped_append {a b : String} : Unescaped (a ++ b) ↔ Unescaped a ∧ Unescaped b := by
  rw [Unescaped, String.toList_append, List.mem_append, not_or]
  rfl

theorem unescaped_repeated {s : String} (h : Unescaped s) (n : Nat) : Unescaped (repeated n s) := by
  rw [Unescaped, repeated, String.toList_join, List.mem_flatMap]
  rintro ⟨part, hpart, hmem⟩
  rw [List.eq_of_mem_replicate hpart] at hmem
  exact h hmem

theorem isDigit_of_mem_repr {n : Nat} {c : Char} (h : c ∈ n.repr.toList) : c.isDigit := by
  rw [Nat.repr_eq_ofList_toDigits, String.toList_ofList] at h
  exact Nat.isDigit_of_mem_toDigits (by decide) (by decide) h

theorem isDigit_of_mem_padded {width n : Nat} {c : Char} (h : c ∈ (padded width n).toList) :
    c.isDigit := by
  rw [padded, String.toList_append, List.mem_append] at h
  rcases h with h | h
  · rw [repeated, String.toList_join, List.mem_flatMap] at h
    obtain ⟨part, hpart, hmem⟩ := h
    rw [List.eq_of_mem_replicate hpart] at hmem
    obtain rfl : c = '0' := by simpa using hmem
    rfl
  · exact isDigit_of_mem_repr h

theorem padded_ne_nil (width n : Nat) : (padded width n).toList ≠ [] := by
  rw [padded, String.toList_append, Nat.toString_eq_ofList_toDigits, String.toList_ofList]
  exact List.append_ne_nil_of_right_ne_nil _ Nat.toDigits_ne_nil

theorem unescaped_of_isDigit {text : String} (h : ∀ c ∈ text.toList, c.isDigit) :
    Unescaped text := by
  intro hmem
  exact absurd (h '\x1b' hmem) (by decide)

theorem unescaped_repr (n : Nat) : Unescaped n.repr :=
  unescaped_of_isDigit fun _ => isDigit_of_mem_repr

end Text

/-! ## Pieces -/

open Text (Inert Unescaped withoutColors)

/-- A piece that is a colour, or a text that is inert. -/
def Piece.IsInert : Piece → Prop
  | .plain s => Inert s.toList
  | .paint _ => True

@[simp]
theorem Piece.isInert_paint (p : Paint) : (Piece.paint p).IsInert :=
  trivial

theorem Piece.isInert_plain {s : String} (h : Unescaped s) : (Piece.plain s).IsInert :=
  Text.inert_of_unescaped h

/-- Of inert pieces written with colours, the pieces written without remain. -/
theorem Piece.withoutColors_writeAll {pieces : List Piece} (h : ∀ piece ∈ pieces, piece.IsInert) :
    withoutColors (Piece.writeAll true pieces).toList = (Piece.writeAll false pieces).toList := by
  induction pieces with
  | nil => exact Text.withoutColors_nil
  | cons piece pieces ih =>
      have hcons (colored : Bool) : (Piece.writeAll colored (piece :: pieces)).toList =
          (piece.write colored).toList ++ (Piece.writeAll colored pieces).toList := by
        rw [Piece.writeAll, List.map_cons, String.join_cons, String.toList_append]
        rfl
      have ih := ih fun piece hpiece => h piece (List.mem_cons_of_mem _ hpiece)
      rw [hcons, hcons, ← ih]
      cases piece with
      | plain s => exact h (.plain s) List.mem_cons_self _
      | paint p => exact Text.withoutColors_code p _

/-- The letter of a code may be an escape character, but never a bracket follows
it. -/
theorem ErrorCode.isInert_display (c : ErrorCode) :
    (Piece.plain ("[" ++ c.display ++ "]")).IsInert := by
  obtain ⟨category, number⟩ := c
  obtain ⟨d, digits, hdigits⟩ := List.exists_cons_of_ne_nil (Text.padded_ne_nil 3 number.toNat)
  have hmem : d ∈ (Text.padded 3 number.toNat).toList := by
    rw [hdigits]
    exact List.mem_cons_self
  have hdigit : d.isDigit := Text.isDigit_of_mem_padded hmem
  have hrest : Inert (d :: digits ++ [']']) := by
    rw [← hdigits]
    refine Inert.append (Text.inert_of_unescaped ?_) (Text.inert_cons (by decide) Text.inert_nil)
    exact Text.unescaped_of_isDigit fun _ => Text.isDigit_of_mem_padded
  have htext : ("[" ++ (ErrorCode.mk category number).display ++ "]").toList =
      '[' :: 'E' :: category :: (d :: digits ++ [']']) := by
    rw [ErrorCode.display]
    simp [hdigits]
  rw [Piece.IsInert, htext]
  refine Text.inert_cons (by decide) (Text.inert_cons (by decide) ?_)
  by_cases hcategory : category = '\x1b'
  · subst hcategory
    refine Text.inert_escape ?_ hrest
    rintro rfl
    exact absurd hdigit (by decide)
  · exact Text.inert_cons hcategory hrest

/-! ## Diagnostics -/

/-- No text that is shown for a diagnostic has an escape character in it: none
of its own texts, and of the files that its labels point into neither the name
nor the line shown. -/
structure Diagnostic.IsUnescaped (cache : SourceCache) (d : Diagnostic) : Prop where
  message : Unescaped d.message
  labels : ∀ l ∈ d.labels, Unescaped l.message
  notes : ∀ note ∈ d.notes, Unescaped note
  help : ∀ help ∈ d.help, Unescaped help
  fileNames : ∀ l ∈ d.labels, ∀ f, cache.file? l.span.file = some f → Unescaped f.name
  lines : ∀ l ∈ d.labels, ∀ f, cache.file? l.span.file = some f →
    ∀ line, f.line? l.span.start.line = some line → Unescaped line

/-- A line of a file shows nothing that is not in its text. -/
theorem unescaped_of_line? {f : SourceFile} (h : Unescaped f.text) {number : UInt32}
    {line : String} (hline : f.line? number = some line) : Unescaped line :=
  fun hmem => h (f.subset_of_line? hline hmem)

theorem Level.unescaped_name (l : Level) : Unescaped l.name := by
  cases l <;> decide

namespace Label

theorem isInert_snippet (level : Level) {l : Label} {line : String} (hline : Unescaped line)
    (hmessage : Unescaped l.message) : ∀ piece ∈ l.snippet level line, piece.IsInert := by
  have hblank : Unescaped " " := by decide
  have hbar : Unescaped "|" := by decide
  have hbarAfter : Unescaped " |" := by decide
  have hbreak : Unescaped "\n" := by decide
  have hmark : Unescaped (if l.primary then "^" else "-") := by
    split <;> decide
  have hnumber := Text.unescaped_repr l.span.start.line.toNat
  have hblanks := Text.unescaped_repeated hblank
  have hmarks := Text.unescaped_repeated hmark
  simp [snippet, Piece.isInert_plain, *]

theorem unescaped_location {cache : SourceCache} {l : Label}
    (hname : ∀ f, cache.file? l.span.file = some f → Unescaped f.name) :
    Unescaped (l.location cache) := by
  have hcolon : Unescaped ":" := by decide
  have hdisplay : Unescaped l.span.display := by
    simp [Span.display, Text.unescaped_repr, hcolon]
  have hfile : Unescaped (((cache.file? l.span.file).map (·.name)).getD "<unit>") := by
    cases hfound : cache.file? l.span.file with
    | none => decide
    | some f => exact hname f hfound
  simp [location, hfile, hcolon, hdisplay]

theorem isInert_pieces {cache : SourceCache} (level : Level) {l : Label}
    (hmessage : Unescaped l.message)
    (hname : ∀ f, cache.file? l.span.file = some f → Unescaped f.name)
    (hline : ∀ f, cache.file? l.span.file = some f →
      ∀ line, f.line? l.span.start.line = some line → Unescaped line) :
    ∀ piece ∈ l.pieces cache level, piece.IsInert := by
  have hblank : Unescaped " " := by decide
  have hindent : Unescaped "   " := by decide
  have hbar : Unescaped "|" := by decide
  have harrow : Unescaped "-->" := by decide
  have hbreak : Unescaped "\n" := by decide
  have hlocation := unescaped_location hname
  intro piece hpiece
  rw [pieces, List.mem_append] at hpiece
  rcases hpiece with hpiece | hpiece
  · revert piece
    simp [Piece.isInert_plain, hblank, harrow, hbreak, hlocation]
  · split at hpiece
    · next line hfound =>
        obtain ⟨f, hf, hfound⟩ := Option.bind_eq_some_iff.1 hfound
        exact isInert_snippet level (hline f hf line hfound) hmessage piece hpiece
    · revert piece
      simp [Piece.isInert_plain, hblank, hindent, hbar, hbreak, hmessage]

end Label

namespace Diagnostic

theorem isInert_headline {d : Diagnostic} (h : Unescaped d.message) :
    ∀ piece ∈ d.headline, piece.IsInert := by
  have hcolon : Unescaped ": " := by decide
  have hbreak : Unescaped "\n" := by decide
  have hname := d.level.unescaped_name
  cases hcode : d.code with
  | none => simp [headline, hcode, Piece.isInert_plain, hname, hcolon, hbreak, h]
  | some code =>
      simp [headline, hcode, Piece.isInert_plain, code.isInert_display, hname, hcolon, hbreak, h]

theorem isInert_pieces {cache : SourceCache} {d : Diagnostic} (h : d.IsUnescaped cache) :
    ∀ piece ∈ d.pieces cache, piece.IsInert := by
  have hbreak : Unescaped "\n" := by decide
  have hnote : Unescaped "  = note: " := by decide
  have hhelp : Unescaped "  = help: " := by decide
  intro piece hpiece
  simp only [pieces, List.mem_append, List.mem_flatMap, List.mem_map] at hpiece
  rcases hpiece with ((hpiece | ⟨l, hl, hpiece⟩) | ⟨note, hmem, rfl⟩) | ⟨help, hmem, rfl⟩
  · exact isInert_headline h.message piece hpiece
  · exact l.isInert_pieces d.level (h.labels l hl) (h.fileNames l hl) (h.lines l hl) piece hpiece
  · exact Piece.isInert_plain (by simp [hnote, hbreak, h.notes note hmem])
  · exact Piece.isInert_plain (by simp [hhelp, hbreak, h.help help hmem])

/-- **Colours change nothing but colours.**  If no text that is shown has an
escape character in it, then deleting the colour sequences from the coloured
form of a diagnostic gives its plain form. -/
theorem stripColors_render (cache : SourceCache) (d : Diagnostic) (h : d.IsUnescaped cache) :
    Text.stripColors (d.render cache true) = d.render cache false := by
  rw [Text.stripColors, render, Piece.withoutColors_writeAll (isInert_pieces h),
    String.ofList_toList, render]

/-- A warning whose code has an escape character as its letter, about a line with
a character of two bytes, and about a file that is not there. -/
theorem stripColors_render_of_escapedCode :
    let cache := SourceCache.empty.add "main" "é = x\n"
    let d : Diagnostic :=
      { level := .warning
        code := some ⟨'\x1b', 1⟩
        message := "unused"
        labels :=
          [⟨⟨⟨1, 1, 0⟩, ⟨2, 1, 7⟩, 0⟩, "here", true⟩,
            ⟨⟨⟨1, 1, 0⟩, ⟨1, 3, 2⟩, 7⟩, "there", false⟩]
        notes := ["one"]
        help := ["two"] }
    d.IsUnescaped cache ∧ d.render cache true ≠ d.render cache false ∧
      Text.stripColors (d.render cache true) = d.render cache false := by
  intro cache d
  have hfile (l : Label) (f : SourceFile) (hf : cache.file? l.span.file = some f) :
      f = ⟨"main", "é = x\n"⟩ :=
    List.mem_singleton.1 (List.mem_of_getElem? hf)
  have h : d.IsUnescaped cache := by
    refine ⟨by decide, by decide, by decide, by decide, ?_, ?_⟩
    · intro l _ f hf
      rw [hfile l f hf]
      decide
    · intro l _ f hf line hline
      rw [hfile l f hf] at hline
      exact unescaped_of_line? (by decide) hline
  refine ⟨h, ?_, stripColors_render cache d h⟩
  intro heq
  have hhead (colored : Bool) : (d.render cache colored).toList.head? =
      some (if colored then '\x1b' else 'w') := by
    cases colored <;>
      simp [d, render, pieces, headline, Piece.writeAll, Piece.write, Paint.code, Level.name]
  have := (hhead true).symm.trans ((congrArg (·.toList.head?) heq).trans (hhead false))
  exact absurd this (by decide)

end Diagnostic

end InfraGraph
