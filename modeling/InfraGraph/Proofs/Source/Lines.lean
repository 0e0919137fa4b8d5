import InfraGraph.Source.File

/-!
# Lines of a file

`line?` cuts a line out of the bytes of a text.  Where it cuts is computed from
the offsets of the newlines alone: a line starts behind one of them, and its end
is found by going back one byte from where the next line starts.

The lines of a text can also be told character by character, as what stands
between newlines (`splitLines`).  Both give the same lines, because a newline is
one byte and the bytes of a text are those of its characters.  So no cut falls
inside a character, whatever characters the lines have.

## Main results

* `slice?_eq_some_iff` — what a slice is: a part of the text with its offset and
  its length in bytes.
* `joinLines_splitLines`, `not_mem_of_mem_splitLines` — the lines, told by
  characters, have no newlines and joined by newlines are the text.
* `exists_lineRange?` — a line stands between the offsets computed for it.
* `lines_exact` — which lines a file has.
-/

namespace InfraGraph

/-! ## Lines by characters -/

/-- The lines of a text. -/
def splitLines : List Char → List (List Char)
  | [] => [[]]
  | c :: rest =>
    if c = '\n' then [] :: splitLines rest
    else
      match splitLines rest with
      | [] => [[c]]
      | line :: lines => (c :: line) :: lines

/-- Lines with a newline between any two of them. -/
def joinLines : List (List Char) → List Char
  | [] => []
  | [line] => line
  | line :: lines => line ++ '\n' :: joinLines lines

theorem splitLines_ne_nil (text : List Char) : splitLines text ≠ [] := by
  cases text with
  | nil => simp [splitLines]
  | cons c rest =>
    simp only [splitLines]
    split
    · simp
    · split <;> simp

theorem joinLines_splitLines (text : List Char) : joinLines (splitLines text) = text := by
  induction text with
  | nil => rfl
  | cons c rest ih =>
    have hne := splitLines_ne_nil rest
    by_cases hc : c = '\n'
    · cases hs : splitLines rest with
      | nil => exact absurd hs hne
      | cons line lines =>
        rw [hs] at ih
        simp [splitLines, hc, hs, joinLines, ih]
    · cases hs : splitLines rest with
      | nil => exact absurd hs hne
      | cons line lines =>
        rw [hs] at ih
        cases lines with
        | nil => simp_all [splitLines, joinLines]
        | cons next lines => simp_all [splitLines, joinLines]

theorem not_mem_of_mem_splitLines {text line : List Char} (h : line ∈ splitLines text) :
    '\n' ∉ line := by
  induction text generalizing line with
  | nil => simp_all [splitLines]
  | cons c rest ih =>
    by_cases hc : c = '\n'
    · simp only [splitLines, if_pos hc, List.mem_cons] at h
      rcases h with rfl | h
      · simp
      · exact ih h
    · cases hs : splitLines rest with
      | nil => exact absurd hs (splitLines_ne_nil rest)
      | cons first lines =>
        rw [hs] at ih
        simp only [splitLines, if_neg hc, hs, List.mem_cons] at h
        rcases h with rfl | h
        · have := ih List.mem_cons_self
          simp only [List.mem_cons, not_or]
          exact ⟨fun e => hc e.symm, this⟩
        · exact ih (List.mem_cons_of_mem _ h)

/-- A text has one line more than newlines. -/
theorem length_splitLines (text : List Char) :
    (splitLines text).length = text.count '\n' + 1 := by
  induction text with
  | nil => rfl
  | cons c rest ih =>
    by_cases hc : c = '\n'
    · simp [splitLines, hc, ih]
    · cases hs : splitLines rest with
      | nil => exact absurd hs (splitLines_ne_nil rest)
      | cons line lines =>
        rw [hs] at ih
        rw [splitLines, if_neg hc, hs, List.count_cons_of_ne hc]
        exact ih

theorem joinLines_cons {lines : List (List Char)} (h : lines ≠ []) (line : List Char) :
    joinLines (line :: lines) = line ++ '\n' :: joinLines lines := by
  cases lines with
  | nil => exact absurd rfl h
  | cons next lines => rfl

theorem toList_intercalate_newline (lines : List (List Char)) :
    ("\n".intercalate (lines.map String.ofList)).toList = joinLines lines := by
  induction lines with
  | nil => simp [joinLines]
  | cons line lines ih =>
    cases lines with
    | nil => simp [joinLines]
    | cons next lines =>
      rw [joinLines_cons (List.cons_ne_nil _ _), ← ih, List.map_cons,
        String.intercalate_cons_of_ne_nil (by simp)]
      simp

/-! ## Bytes -/

namespace Text

/-- How many bytes some characters take. -/
def byteLength (chars : List Char) : Nat :=
  (String.ofList chars).utf8ByteSize

@[simp]
theorem byteLength_nil : byteLength [] = 0 :=
  rfl

@[simp]
theorem byteLength_append (a b : List Char) :
    byteLength (a ++ b) = byteLength a + byteLength b := by
  rw [byteLength, String.ofList_append, String.utf8ByteSize_append]
  rfl

@[simp]
theorem byteLength_cons (c : Char) (rest : List Char) :
    byteLength (c :: rest) = c.utf8Size + byteLength rest := by
  have hcons : c :: rest = [c] ++ rest := rfl
  rw [hcons, byteLength_append, byteLength, ← String.singleton_eq_ofList,
    String.utf8ByteSize_singleton]

theorem byteLength_toList (text : String) : byteLength text.toList = text.utf8ByteSize := by
  rw [byteLength, String.ofList_toList]

/-- What a slice is: some of the text, with as many bytes before it and in it as
the offsets say. -/
theorem slice?_eq_some_iff {text line : String} {start stop : Nat} :
    slice? text start stop = some line ↔ ∃ before after, text = before ++ line ++ after ∧
      start = before.utf8ByteSize ∧ stop = (before ++ line).utf8ByteSize := by
  rw [slice?]
  constructor
  · intro h
    split at h
    · next hcut =>
        obtain ⟨before, after, hstart, hstop⟩ :=
          String.copy_slice_eq_iff_splits.1 ⟨_, Option.some.inj h⟩
        refine ⟨before, after, hstop.eq_append, ?_, ?_⟩
        · exact congrArg String.Pos.Raw.byteIdx hstart.offset_eq_rawEndPos
        · exact congrArg String.Pos.Raw.byteIdx hstop.offset_eq_rawEndPos
    · cases h
  · rintro ⟨before, after, rfl, rfl, rfl⟩
    have hstart : String.Pos.Raw.IsValid (before ++ line ++ after) ⟨before.utf8ByteSize⟩ :=
      String.Pos.Raw.isValid_iff_exists_append.2
        ⟨before, line ++ after, String.append_assoc .., rfl⟩
    have hstop : String.Pos.Raw.IsValid (before ++ line ++ after)
        ⟨(before ++ line).utf8ByteSize⟩ :=
      String.Pos.Raw.isValid_iff_exists_append.2 ⟨before ++ line, after, rfl, rfl⟩
    have hle : before.utf8ByteSize ≤ (before ++ line).utf8ByteSize := by
      rw [String.utf8ByteSize_append]
      exact Nat.le_add_right _ _
    rw [dif_pos ⟨hstart, hstop, hle⟩]
    obtain ⟨_, hcopy⟩ : ∃ h, ((before ++ line ++ after).slice
        ((before ++ line ++ after).pos ⟨before.utf8ByteSize⟩ hstart)
        ((before ++ line ++ after).pos ⟨(before ++ line).utf8ByteSize⟩ hstop) h).copy = line :=
      String.copy_slice_eq_iff_splits.2
        ⟨before, after, ⟨String.append_assoc .., rfl⟩, ⟨rfl, rfl⟩⟩
    exact congrArg some hcopy
/-! ## Where lines stand -/

/-- Characters that are no newlines only move what follows them. -/
theorem newlineOffsets_append {line : List Char} (h : '\n' ∉ line) (offset : Nat)
    (rest : List Char) :
    newlineOffsets offset (line ++ rest) = newlineOffsets (offset + byteLength line) rest := by
  induction line generalizing offset with
  | nil => rfl
  | cons c line ih =>
      rw [List.mem_cons, not_or] at h
      rw [List.cons_append, newlineOffsets, if_neg (Ne.symm h.1), ih h.2, byteLength_cons,
        Nat.add_assoc]

theorem length_newlineOffsets (offset : Nat) (text : List Char) :
    (newlineOffsets offset text).length = text.count '\n' := by
  induction text generalizing offset with
  | nil => rfl
  | cons c rest ih =>
      rw [newlineOffsets]
      by_cases hc : c = '\n'
      · rw [if_pos hc, hc, List.count_cons_self, List.length_cons, ih]
      · rw [if_neg hc, List.count_cons_of_ne hc, ih]

/-- The newlines of joined lines tell where each line starts and where it ends:
the newline before a line is one byte before its start, and the newline after it
stands at its end. -/
theorem exists_of_joinLines {lines : List (List Char)} (hlines : ∀ line ∈ lines, '\n' ∉ line)
    (offset : Nat) {i : Nat} {line : List Char} (hline : lines[i]? = some line) :
    let newlines := newlineOffsets offset (joinLines lines)
    ∃ before after, joinLines lines = before ++ line ++ after ∧
      (offset :: newlines.map (· + 1))[i]? = some (offset + byteLength before) ∧
      newlines[i]?.getD (offset + byteLength (joinLines lines)) =
        offset + byteLength (before ++ line) := by
  induction lines generalizing offset i with
  | nil => cases hline
  | cons first lines ih =>
      have hfirst := newlineOffsets_append (hlines first List.mem_cons_self) offset
      cases lines with
      | nil =>
          -- The last line ends with the text.
          have hnone : newlineOffsets offset (joinLines [first]) = [] := by
            have := hfirst []
            rwa [List.append_nil] at this
          cases i with
          | zero =>
              obtain rfl := Option.some.inj hline
              refine ⟨[], [], by simp [joinLines], by simp, ?_⟩
              rw [hnone]
              rfl
          | succ i => cases hline
      | cons next lines =>
          have hjoin := joinLines_cons (List.cons_ne_nil next lines) first
          have hnewlines : newlineOffsets offset (joinLines (first :: next :: lines)) =
              (offset + byteLength first) ::
                newlineOffsets (offset + byteLength first + 1) (joinLines (next :: lines)) := by
            rw [hjoin, hfirst]
            rfl
          intro newlines
          cases i with
          | zero =>
              obtain rfl := Option.some.inj hline
              refine ⟨[], '\n' :: joinLines (next :: lines), hjoin, by simp, ?_⟩
              simp only [newlines, hnewlines]
              rfl
          | succ i =>
              obtain ⟨before, after, htext, hstart, hstop⟩ :=
                ih (fun line hline => hlines line (List.mem_cons_of_mem _ hline))
                  (offset + byteLength first + 1) hline
              have hsize : (('\n').utf8Size : Nat) = 1 := rfl
              refine ⟨first ++ '\n' :: before, after, ?_, ?_, ?_⟩
              · rw [hjoin, htext]
                simp
              · rw [show newlines = _ from hnewlines, List.map_cons, List.getElem?_cons_succ,
                  hstart]
                simp only [byteLength_append, byteLength_cons, hsize]
                congr 1
                omega
              · rw [show newlines = _ from hnewlines, List.getElem?_cons_succ, hjoin]
                simp only [byteLength_append, byteLength_cons, hsize] at hstop ⊢
                rw [← Nat.add_assoc, ← Nat.add_assoc, hstop]
                omega

end Text

namespace SourceFile

variable {f : SourceFile} {number : UInt32}

/-- A line of the text stands between the offsets that are computed for it. -/
theorem exists_lineRange? (hnumber : number ≠ 0) {line : List Char}
    (hline : (splitLines f.text.toList)[number.toNat - 1]? = some line) :
    ∃ before after, f.text = before ++ String.ofList line ++ after ∧
      f.lineRange? number =
        some (before.utf8ByteSize, (before ++ String.ofList line).utf8ByteSize) := by
  obtain ⟨before, after, htext, hstart, hstop⟩ :=
    Text.exists_of_joinLines (fun _ => not_mem_of_mem_splitLines) 0 hline
  rw [joinLines_splitLines] at htext hstart hstop
  refine ⟨.ofList before, .ofList after, ?_, ?_⟩
  · rw [← String.ofList_append, ← String.ofList_append, ← htext, String.ofList_toList]
  · rw [Nat.zero_add] at hstart hstop
    rw [Text.byteLength_toList, Nat.zero_add] at hstop
    have hend : (f.lineStarts[number.toNat - 1 + 1]?.map (· - 1)).getD f.text.utf8ByteSize =
        Text.byteLength (before ++ line) := by
      rw [lineStarts, List.getElem?_cons_succ, List.getElem?_map, Option.map_map, ← hstop]
      exact congrArg (Option.getD · _) (Option.map_id' ..)
    rw [lineRange?, if_neg hnumber]
    dsimp only
    rw [hend, lineStarts, hstart, ← String.ofList_append]
    rfl

/-- What is cut out for a line is the line. -/
theorem line?_of_splitLines (hnumber : number ≠ 0) {line : List Char}
    (hline : (splitLines f.text.toList)[number.toNat - 1]? = some line) :
    f.line? number = some (.ofList line) := by
  obtain ⟨before, after, htext, hrange⟩ := exists_lineRange? hnumber hline
  rw [line?, hrange]
  exact Text.slice?_eq_some_iff.2 ⟨before, after, htext, rfl, rfl⟩

/-- Offsets are computed for as many lines as the text has. -/
theorem isSome_lineRange?_iff :
    (f.lineRange? number).isSome ↔
      1 ≤ number.toNat ∧ number.toNat ≤ f.text.toList.count '\n' + 1 := by
  have hlength : f.lineStarts.length = f.text.toList.count '\n' + 1 := by
    rw [lineStarts, List.length_cons, List.length_map, Text.length_newlineOffsets]
  rw [lineRange?]
  by_cases hnumber : number = 0
  · subst hnumber
    simp
  · have hpos : 0 < number.toNat := by
      refine Nat.pos_of_ne_zero fun hzero => hnumber ?_
      exact UInt32.toNat_inj.1 hzero
    rw [if_neg hnumber]
    dsimp only
    rw [Option.isSome_map, isSome_getElem?, hlength]
    omega

theorem exists_splitLines (h : (f.lineRange? number).isSome) :
    number ≠ 0 ∧ ∃ line, (splitLines f.text.toList)[number.toNat - 1]? = some line := by
  obtain ⟨hpos, hle⟩ := isSome_lineRange?_iff.1 h
  have hlt : number.toNat - 1 < (splitLines f.text.toList).length := by
    rw [length_splitLines]
    omega
  refine ⟨?_, _, List.getElem?_eq_getElem hlt⟩
  rintro rfl
  exact absurd hpos (by decide)

/-- A file has a line for every offset that a line starts at. -/
theorem isSome_line?_iff : (f.line? number).isSome ↔ (f.lineRange? number).isSome := by
  constructor
  · intro h
    cases hrange : f.lineRange? number with
    | none => simp [line?, hrange] at h
    | some range => rfl
  · intro h
    obtain ⟨hnumber, line, hline⟩ := exists_splitLines h
    rw [line?_of_splitLines hnumber hline]
    rfl

/-- A line shows nothing that is not in the text. -/
theorem subset_of_line? {line : String} (h : f.line? number = some line) :
    line.toList ⊆ f.text.toList := by
  obtain ⟨range, -, hslice⟩ := Option.bind_eq_some_iff.1 h
  obtain ⟨before, after, htext, -, -⟩ := Text.slice?_eq_some_iff.1 hslice
  intro c hc
  rw [htext, String.toList_append, String.toList_append]
  exact List.mem_append_left _ (List.mem_append_right _ hc)

/-- If the number of every line is a word, the lines in order are those of the
text. -/
theorem map_line?_range' (h : f.text.toList.count '\n' + 1 < UInt32.size) :
    (List.range' 1 (f.text.toList.count '\n' + 1)).map (fun k => f.line? (.ofNat k)) =
      ((splitLines f.text.toList).map String.ofList).map some := by
  refine List.ext_getElem (by simp [length_splitLines]) fun i hi hline => ?_
  rw [List.length_map, List.length_range'] at hi
  rw [List.length_map, List.length_map] at hline
  rw [List.getElem_map, List.getElem_range', List.getElem_map, List.getElem_map, Nat.one_mul]
  have htoNat : (UInt32.ofNat (1 + i)).toNat = 1 + i := UInt32.toNat_ofNat_of_lt (by omega)
  have hnumber : UInt32.ofNat (1 + i) ≠ 0 := by
    intro hzero
    rw [hzero, UInt32.toNat_zero] at htoNat
    omega
  have hindex : (UInt32.ofNat (1 + i)).toNat - 1 = i := by omega
  refine line?_of_splitLines hnumber ?_
  rw [hindex]
  exact List.getElem?_eq_getElem hline

/-- **The lines of a file.**  A text with `n` newlines has the lines `1` to `n + 1`
and no other, none of them with a newline in it; joined by newlines they are the
text again.  Every line is cut out between two characters of the text, and not
back to front. -/
theorem lines_exact (f : SourceFile) (h : f.text.toList.count '\n' + 1 < UInt32.size) :
    let n := f.text.toList.count '\n'
    (∀ number, (f.line? number).isSome ↔ 1 ≤ number.toNat ∧ number.toNat ≤ n + 1) ∧
      (∀ number line, f.line? number = some line → '\n' ∉ line.toList) ∧
      (∃ lines : List String,
        (List.range' 1 (n + 1)).map (fun k => f.line? (.ofNat k)) = lines.map some ∧
          "\n".intercalate lines = f.text) ∧
      ∀ number start stop, f.lineRange? number = some (start, stop) →
        start ≤ stop ∧ String.Pos.Raw.IsValid f.text ⟨start⟩ ∧
          String.Pos.Raw.IsValid f.text ⟨stop⟩ := by
  intro n
  refine ⟨fun number => isSome_line?_iff.trans isSome_lineRange?_iff, ?_, ?_, ?_⟩
  · intro number line hline
    have hsome : (f.lineRange? number).isSome := by
      rw [← isSome_line?_iff, hline]
      rfl
    obtain ⟨hnumber, chars, hchars⟩ := exists_splitLines hsome
    rw [line?_of_splitLines hnumber hchars] at hline
    obtain rfl := Option.some.inj hline
    rw [String.toList_ofList]
    exact not_mem_of_mem_splitLines (List.mem_of_getElem? hchars)
  · refine ⟨(splitLines f.text.toList).map String.ofList, ?_, ?_⟩
    · exact map_line?_range' h
    · rw [← String.toList_inj, toList_intercalate_newline, joinLines_splitLines]
  · intro number start stop hrange
    have hsome : (f.lineRange? number).isSome := by
      rw [hrange]
      rfl
    obtain ⟨hnumber, line, hline⟩ := exists_splitLines hsome
    obtain ⟨before, after, htext, hcut⟩ := exists_lineRange? hnumber hline
    rw [hrange] at hcut
    obtain ⟨rfl, rfl⟩ := Prod.mk.inj (Option.some.inj hcut)
    refine ⟨?_, ?_, ?_⟩
    · rw [String.utf8ByteSize_append]
      exact Nat.le_add_right _ _
    · exact String.Pos.Raw.isValid_iff_exists_append.2
        ⟨before, .ofList line ++ after, htext.trans (String.append_assoc ..), rfl⟩
    · exact String.Pos.Raw.isValid_iff_exists_append.2 ⟨before ++ .ofList line, after, htext, rfl⟩

/-- An empty line, a line of characters of two and of four bytes, and a newline
at the end of the text. -/
theorem lines_exact_of_mixed :
    let f : SourceFile := ⟨"main", "\né😀\nx\n"⟩
    f.text.toList.count '\n' + 1 < UInt32.size ∧ f.lineStarts = [0, 1, 8, 10] ∧
      (f.line? 4).isSome ∧ (f.line? 5).isSome = false ∧
      ∃ lines : List String,
        (List.range' 1 4).map (fun k => f.line? (.ofNat k)) = lines.map some ∧
          "\n".intercalate lines = f.text := by
  intro f
  have h : f.text.toList.count '\n' + 1 < UInt32.size := by decide
  obtain ⟨hsome, -, hlines, -⟩ := lines_exact f h
  have hcount : f.text.toList.count '\n' = 3 := by decide
  rw [hcount] at hsome hlines
  refine ⟨h, by decide, (hsome 4).2 (by decide), ?_, hlines⟩
  exact Bool.eq_false_iff.2 fun hfive => absurd ((hsome 5).1 hfive) (by decide)

end SourceFile

end InfraGraph
