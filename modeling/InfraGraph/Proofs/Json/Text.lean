import InfraGraph.Proofs.Json.Token

/-!
# Reading what was written: values

Reading a text never fails and bounds its steps by the length of the text.  What
was written for a clean value is read back as that value, and nothing of the
text behind it is touched, provided that a number at the end is not gone on
with.

This is first proved of texts: what a text needs to be read as a value, or as
the items or members that are left of a container, whatever blanks stand between
the tokens.  The two layouts then only have to be seen to write such texts.

## Main definitions

* `Json.Reads` — a text that is read as a value.
* `Json.ReadsItems`, `Json.ReadsMembers` — a text that is read as the rest of a
  container.
* `Json.Writes` — the output grew by a text that is read as a value.

## Main results

* `exists_writeCompact`, `exists_writePretty` — what is written for a value.
* `parse_compact`, `parse_pretty` — whole texts.
-/

namespace InfraGraph

namespace Json

/-! ## Blanks -/

/-- A text of blanks only. -/
def Blank (text : List Char) : Prop :=
  ∀ c ∈ text, isBlank c = true

theorem blank_nil : Blank [] := fun _ h => absurd h List.not_mem_nil

theorem blank_space : Blank [' '] := by
  simp [Blank, isBlank]

theorem skipBlank_append {blanks : List Char} (h : Blank blanks) (text : List Char) :
    skipBlank (blanks ++ text) = skipBlank text := by
  induction blanks with
  | nil => rfl
  | cons c blanks ih =>
      obtain ⟨hc, hblanks⟩ := List.forall_mem_cons.1 h
      rw [List.cons_append, skipBlank, if_pos hc]
      exact ih hblanks

theorem skipBlank_cons {c : Char} (h : isBlank c = false) (text : List Char) :
    skipBlank (c :: text) = c :: text := by
  rw [skipBlank, h]
  rfl

theorem readValue_append {blanks : List Char} (h : Blank blanks) (fuel : Nat)
    (text : List Char) : readValue fuel (blanks ++ text) = readValue fuel text := by
  cases fuel with
  | zero => rfl
  | succ fuel => rw [readValue, readValue, skipBlank_append h]

theorem endsNumber_cons {c : Char} (h : isBlank c = true ∨ c ∈ [',', ']', '}'])
    (text : List Char) : EndsNumber (c :: text) := by
  have hall : ∀ c ∈ [' ', '\n', '\t', '\r', ',', ']', '}'],
      c.isDigit = false ∧ c ≠ '.' ∧ c ≠ 'e' ∧ c ≠ 'E' := by simp
  have hmem : c ∈ [' ', '\n', '\t', '\r', ',', ']', '}'] := by
    simp only [isBlank, Bool.or_eq_true, beq_iff_eq, List.mem_cons, List.not_mem_nil,
      or_false, or_assoc] at h ⊢
    exact h
  rintro _ ⟨⟩
  exact hall c hmem

/-- Blanks before a closing character end a number. -/
theorem endsNumber_append {blanks : List Char} (hblanks : Blank blanks) {c : Char}
    (h : c ∈ [',', ']', '}']) (text : List Char) : EndsNumber (blanks ++ c :: text) := by
  cases blanks with
  | nil => exact endsNumber_cons (.inr h) text
  | cons b blanks => exact endsNumber_cons (.inl (hblanks b List.mem_cons_self)) _

/-! ## Texts that are read as values -/

/-- A text that is read as a value, if there are four steps for each of its
characters. -/
structure Reads (v : Json) (text : List Char) : Prop where
  head : ∃ c cs, text = c :: cs ∧ isBlank c = false ∧ c ≠ ']'
  read : ∀ fuel rest, 4 * text.length ≤ fuel + 1 → EndsNumber rest →
    readValue (fuel + 1) (text ++ rest) = (v, some rest)

/-- A text that is read as the items that are left of a list, behind another
item. -/
structure ReadsItems (items : List Json) (text : List Char) : Prop where
  ends : ∀ rest, EndsNumber (text ++ rest)
  read : ∀ fuel rest, 4 * text.length ≤ fuel + 1 →
    readItems (fuel + 1) false (text ++ rest) = (items, some rest)

/-- A text that is read as the members that are left of an object, behind
another member. -/
structure ReadsMembers (members : List (String × Json)) (text : List Char) : Prop where
  ends : ∀ rest, EndsNumber (text ++ rest)
  read : ∀ fuel rest, 4 * text.length ≤ fuel + 1 →
    readMembers (fuel + 1) false (text ++ rest) = ⟨members, none, some rest⟩

/-- A text that is read as a string, its opening quote already seen. -/
def ReadsString (s : String) (text : List Char) : Prop :=
  ∀ rest, readString "" (text ++ rest) = .ok (s, rest)

theorem reads_null : Reads .null ['n', 'u', 'l', 'l'] where
  head := ⟨'n', _, rfl, rfl, by decide⟩
  read _ _ _ _ := rfl

theorem reads_bool (b : Bool) : Reads (.bool b) (if b then "true" else "false").toList := by
  cases b with
  | false => exact ⟨⟨'f', _, rfl, rfl, by decide⟩, fun _ _ _ _ => rfl⟩
  | true => exact ⟨⟨'t', _, rfl, rfl, by decide⟩, fun _ _ _ _ => rfl⟩

theorem reads_int {n : Int} (hclean : (int n).Clean) : Reads (.int n) (toString n).toList := by
  obtain ⟨c, cs, hdigits, hc⟩ := exists_toString n
  have hothers : ∀ x ∈ [' ', '\n', '\t', '\r', ']', '"', '[', '{', 'n', 't', 'f'],
      ¬(x = '-' ∨ x.isDigit) := by simp
  have hne (x : Char) (hx : x ∈ [' ', '\n', '\t', '\r', ']', '"', '[', '{', 'n', 't', 'f']) :
      c ≠ x := by
    rintro rfl
    exact hothers c hx hc
  have hblank : isBlank c = false := by
    simp [isBlank, hne]
  have hstart : (c == '-' || c.isDigit) = true := by
    simpa using hc
  refine ⟨⟨c, cs, hdigits, hblank, hne ']' (by decide)⟩, fun fuel rest _ hrest => ?_⟩
  have hnumber : readNumberValue (c :: (cs ++ rest)) = (.int n, some rest) := by
    have hread := readNumber_toString hclean hrest
    rw [hdigits, List.cons_append] at hread
    rw [readNumberValue, hread]
  rw [hdigits, List.cons_append, ← hnumber]
  simp [readValue, skipBlank_cons hblank, hstart, hne]

theorem reads_str {s : String} {text : List Char} (h : ReadsString s text) :
    Reads (.str s) ('"' :: text) where
  head := ⟨'"', _, rfl, rfl, by decide⟩
  read fuel rest _ _ := by
    show readStringValue (text ++ rest) = _
    rw [readStringValue, h]

/-! ### Lists -/

section

variable {v : Json} {items : List Json} {blanks text others : List Char}

theorem readsItems_nil (hblanks : Blank blanks) : ReadsItems [] (blanks ++ [']']) where
  ends rest := by
    rw [List.append_assoc]
    exact endsNumber_append hblanks (by decide) rest
  read fuel rest _ := by
    rw [readItems, List.append_assoc, skipBlank_append hblanks]
    rfl

theorem readItem_eq (hv : Reads v text) (hothers : ReadsItems items others)
    (hblanks : Blank blanks) {fuel : Nat} (hfuel : 4 * (text.length + others.length) ≤ fuel + 1)
    (rest : List Char) :
    readItem (fuel + 2) (blanks ++ (text ++ (others ++ rest))) = (v :: items, some rest) := by
  rw [readItem, readValue_append hblanks, hv.read fuel _ (by omega) (hothers.ends rest)]
  exact congrArg (fun read => (v :: read.1, read.2)) (hothers.read fuel rest (by omega))

theorem readsItems_cons (hv : Reads v text) (hothers : ReadsItems items others)
    (hblanks : Blank blanks) :
    ReadsItems (v :: items) (',' :: (blanks ++ (text ++ others))) where
  ends rest := endsNumber_cons (.inr (by decide)) _
  read fuel rest hfuel := by
    simp only [List.length_cons, List.length_append] at hfuel
    obtain ⟨steps, rfl⟩ : ∃ steps, fuel = steps + 2 := ⟨fuel - 2, by omega⟩
    show readItem (steps + 2) (blanks ++ (text ++ others) ++ rest) = _
    rw [List.append_assoc, List.append_assoc]
    exact readItem_eq hv hothers hblanks (by omega) rest

theorem reads_arr_nil (hblanks : Blank blanks) : Reads (.arr []) ('[' :: (blanks ++ [']'])) where
  head := ⟨'[', _, rfl, rfl, by decide⟩
  read fuel rest hfuel _ := by
    simp only [List.length_cons, List.length_append] at hfuel
    obtain ⟨steps, rfl⟩ : ∃ steps, fuel = steps + 1 := ⟨fuel - 1, by omega⟩
    have hitems : readItems (steps + 1) true (blanks ++ [']'] ++ rest) = ([], some rest) := by
      rw [readItems, List.append_assoc, skipBlank_append hblanks]
      rfl
    exact congrArg (fun read => (arr read.1, read.2)) hitems

theorem reads_arr_cons (hv : Reads v text) (hothers : ReadsItems items others)
    (hblanks : Blank blanks) :
    Reads (.arr (v :: items)) ('[' :: (blanks ++ (text ++ others))) where
  head := ⟨'[', _, rfl, rfl, by decide⟩
  read fuel rest hfuel _ := by
    simp only [List.length_cons, List.length_append] at hfuel
    obtain ⟨steps, rfl⟩ : ∃ steps, fuel = steps + 3 := ⟨fuel - 3, by omega⟩
    have hitem : readItem (steps + 2) (text ++ (others ++ rest)) = (v :: items, some rest) :=
      readItem_eq hv hothers blank_nil (by omega) rest
    have hitems : readItems (steps + 3) true (blanks ++ (text ++ others) ++ rest) =
        (v :: items, some rest) := by
      obtain ⟨c, cs, rfl, hc, hclose⟩ := hv.head
      rw [List.cons_append] at hitem
      rw [readItems, List.append_assoc, List.append_assoc, skipBlank_append hblanks,
        List.cons_append, skipBlank_cons hc]
      simpa [hclose] using hitem
    exact congrArg (fun read => (arr read.1, read.2)) hitems

end

/-! ### Objects -/

section

variable {key : String} {v : Json} {members : List (String × Json)}
  {blanks inner keyText text others : List Char}

theorem readsMembers_nil (hblanks : Blank blanks) : ReadsMembers [] (blanks ++ ['}']) where
  ends rest := by
    rw [List.append_assoc]
    exact endsNumber_append hblanks (by decide) rest
  read fuel rest _ := by
    rw [readMembers, List.append_assoc, skipBlank_append hblanks]
    rfl

/-- The text of a member and of those that are left behind it. -/
def memberText (keyText inner text others : List Char) : List Char :=
  '"' :: (keyText ++ ':' :: (inner ++ (text ++ others)))

/-- A comma leads to the next member, if any text is left behind its blanks. -/
theorem readMembers_comma {c : Char} {cs : List Char} (h : skipBlank text = c :: cs)
    (fuel : Nat) : readMembers (fuel + 1) false (',' :: text) = readMember fuel (c :: cs) := by
  have hcomma : skipBlank (',' :: text) = ',' :: text := rfl
  rw [readMembers, hcomma]
  simp [h]

/-- A colon leads to the value of a member, and that to the members behind it. -/
theorem readEntry_colon {fuel : Nat} {rest : List Char}
    (h : readValue fuel text = (v, some rest)) :
    readEntry (fuel + 1) key (':' :: text) = (readMembers fuel false rest).cons key v := by
  have hcolon : afterColon (':' :: text) = .ok text := rfl
  rw [readEntry, hcolon]
  simp [h]

theorem readMember_eq (hkey : ReadsString key keyText) (hv : Reads v text)
    (hothers : ReadsMembers members others) (hinner : Blank inner) {fuel : Nat}
    (hfuel : 4 * (text.length + others.length) ≤ fuel + 1) (rest : List Char) :
    readMember (fuel + 3) (memberText keyText inner text others ++ rest) =
      ⟨(key, v) :: members, none, some rest⟩ := by
  have hvalue : readValue (fuel + 1) (inner ++ (text ++ (others ++ rest))) =
      (v, some (others ++ rest)) := by
    rw [readValue_append hinner, hv.read fuel _ (by omega) (hothers.ends rest)]
  have htext : memberText keyText inner text others ++ rest =
      '"' :: (keyText ++ ':' :: (inner ++ (text ++ (others ++ rest)))) := by
    simp [memberText]
  rw [htext, readMember, hkey]
  show readEntry (fuel + 2) key _ = _
  rw [readEntry_colon hvalue, hothers.read fuel rest (by omega)]
  rfl

theorem readsMembers_cons (hkey : ReadsString key keyText) (hv : Reads v text)
    (hothers : ReadsMembers members others) (hblanks : Blank blanks) (hinner : Blank inner) :
    ReadsMembers ((key, v) :: members)
      (',' :: (blanks ++ memberText keyText inner text others)) where
  ends rest := endsNumber_cons (.inr (by decide)) _
  read fuel rest hfuel := by
    simp only [List.length_cons, List.length_append, memberText] at hfuel
    obtain ⟨steps, rfl⟩ : ∃ steps, fuel = steps + 3 := ⟨fuel - 3, by omega⟩
    have hstart : skipBlank (blanks ++ memberText keyText inner text others ++ rest) =
        memberText keyText inner text others ++ rest := by
      rw [List.append_assoc, skipBlank_append hblanks]
      rfl
    rw [List.cons_append, readMembers_comma hstart]
    exact readMember_eq hkey hv hothers hinner (by omega) rest

theorem reads_obj_nil (hblanks : Blank blanks) : Reads (.obj []) ('{' :: (blanks ++ ['}'])) where
  head := ⟨'{', _, rfl, rfl, by decide⟩
  read fuel rest hfuel _ := by
    simp only [List.length_cons, List.length_append] at hfuel
    obtain ⟨steps, rfl⟩ : ∃ steps, fuel = steps + 1 := ⟨fuel - 1, by omega⟩
    have hmembers : readMembers (steps + 1) true (blanks ++ ['}'] ++ rest) =
        ⟨[], none, some rest⟩ := by
      rw [readMembers, List.append_assoc, skipBlank_append hblanks]
      rfl
    exact congrArg (fun body => (body.value, body.rest)) hmembers

theorem reads_obj_cons (hkey : ReadsString key keyText) (hv : Reads v text)
    (hothers : ReadsMembers members others) (hblanks : Blank blanks) (hinner : Blank inner) :
    Reads (.obj ((key, v) :: members))
      ('{' :: (blanks ++ memberText keyText inner text others)) where
  head := ⟨'{', _, rfl, rfl, by decide⟩
  read fuel rest hfuel _ := by
    simp only [List.length_cons, List.length_append, memberText] at hfuel
    obtain ⟨steps, rfl⟩ : ∃ steps, fuel = steps + 4 := ⟨fuel - 4, by omega⟩
    have hmembers : readMembers (steps + 4) true
        (blanks ++ memberText keyText inner text others ++ rest) =
          ⟨(key, v) :: members, none, some rest⟩ := by
      rw [readMembers, List.append_assoc, skipBlank_append hblanks]
      exact readMember_eq hkey hv hothers hinner (by omega) rest
    exact congrArg (fun body => (body.value, body.rest)) hmembers

end

/-! ## Output that grows -/

/-- The output grew by a text that is read as the value. -/
def Writes (before after : String) (v : Json) : Prop :=
  ∃ text, after.toList = before.toList ++ text ∧ Reads v text

/-- The output grew by the texts of a key and of a value behind a colon. -/
theorem Writes.member {key : String} {v : Json} {before named after : String} {inner : List Char}
    (h : Writes named after v)
    (hnamed : named.toList = (writeString before key).toList ++ ':' :: inner) :
    ∃ keyText text, ReadsString key keyText ∧ Reads v text ∧
      after.toList = before.toList ++ '"' :: (keyText ++ ':' :: (inner ++ text)) := by
  obtain ⟨keyText, hkey, hreadKey⟩ := exists_writeString before key
  obtain ⟨text, htext, hread⟩ := h
  refine ⟨keyText, text, hreadKey, hread, ?_⟩
  rw [htext, hnamed, hkey]
  simp

/-! ## On one line -/

section

variable {v : Json}

theorem exists_writeCompactItems {items : List Json}
    (h : ∀ v ∈ items, ∀ out, Writes out (writeCompact out v) v) (out : String) :
    ∃ text, ((writeCompactItems out false items).push ']').toList = out.toList ++ text ∧
      ReadsItems items text := by
  induction items generalizing out with
  | nil => exact ⟨_, String.toList_push _, readsItems_nil blank_nil⟩
  | cons v items ih =>
      obtain ⟨hv, hitems⟩ := List.forall_mem_cons.1 h
      obtain ⟨text, htext, hread⟩ := hv (out.push ',')
      obtain ⟨others, hothers, hreads⟩ := ih hitems (writeCompact (out.push ',') v)
      refine ⟨_, ?_, readsItems_cons hread hreads blank_nil⟩
      show ((writeCompactItems (writeCompact (out.push ',') v) false items).push ']').toList = _
      rw [hothers, htext]
      simp

theorem exists_writeCompactMembers {members : List (String × Json)}
    (h : ∀ m ∈ members, ∀ out, Writes out (writeCompact out m.2) m.2) (out : String) :
    ∃ text, ((writeCompactMembers out false members).push '}').toList = out.toList ++ text ∧
      ReadsMembers members text := by
  induction members generalizing out with
  | nil => exact ⟨_, String.toList_push _, readsMembers_nil blank_nil⟩
  | cons m members ih =>
      obtain ⟨key, v⟩ := m
      obtain ⟨hv, hmembers⟩ := List.forall_mem_cons.1 h
      obtain ⟨keyText, text, hkey, hread, htext⟩ :=
        (hv ((writeString (out.push ',') key).push ':')).member (String.toList_push _)
      obtain ⟨others, hothers, hreads⟩ :=
        ih hmembers (writeCompact ((writeString (out.push ',') key).push ':') v)
      refine ⟨_, ?_, readsMembers_cons hkey hread hreads blank_nil blank_nil⟩
      show ((writeCompactMembers (writeCompact ((writeString (out.push ',') key).push ':') v) false
        members).push '}').toList = _
      rw [hothers, htext]
      simp [memberText]

/-- **A clean value** is read back from its text on one line. -/
theorem exists_writeCompact (hclean : v.Clean) (out : String) :
    Writes out (writeCompact out v) v := by
  induction v using Json.induction generalizing out with
  | step v ih =>
      cases v with
      | null => exact ⟨_, String.toList_append, reads_null⟩
      | bool b => exact ⟨_, String.toList_append, reads_bool b⟩
      | int n => exact ⟨_, String.toList_append, reads_int hclean⟩
      | real => cases hclean
      | str s =>
          obtain ⟨text, htext, hread⟩ := exists_writeString out s
          exact ⟨_, htext, reads_str hread⟩
      | arr items =>
          rw [clean_arr] at hclean
          cases items with
          | nil => exact ⟨_, by simp [writeCompact, writeCompactItems], reads_arr_nil blank_nil⟩
          | cons v items =>
              have hall : ∀ c ∈ v :: items, ∀ out, Writes out (writeCompact out c) c :=
                fun c hc => ih c hc (hclean c hc)
              obtain ⟨hv, hitems⟩ := List.forall_mem_cons.1 hall
              obtain ⟨text, htext, hread⟩ := hv (out.push '[')
              obtain ⟨others, hothers, hreads⟩ :=
                exists_writeCompactItems hitems (writeCompact (out.push '[') v)
              refine ⟨_, ?_, reads_arr_cons hread hreads blank_nil⟩
              rw [writeCompact, writeCompactItems, if_pos rfl, hothers, htext]
              simp
      | obj members =>
          rw [clean_obj] at hclean
          cases members with
          | nil => exact ⟨_, by simp [writeCompact, writeCompactMembers], reads_obj_nil blank_nil⟩
          | cons m members =>
              obtain ⟨key, v⟩ := m
              have hall : ∀ m ∈ (key, v) :: members, ∀ out,
                  Writes out (writeCompact out m.2) m.2 :=
                fun m hm => ih m.2 (List.mem_map_of_mem hm) (hclean m hm)
              obtain ⟨hv, hmembers⟩ := List.forall_mem_cons.1 hall
              obtain ⟨keyText, text, hkey, hread, htext⟩ :=
                (hv ((writeString (out.push '{') key).push ':')).member (String.toList_push _)
              obtain ⟨others, hothers, hreads⟩ := exists_writeCompactMembers hmembers
                (writeCompact ((writeString (out.push '{') key).push ':') v)
              refine ⟨_, ?_, reads_obj_cons hkey hread hreads blank_nil blank_nil⟩
              rw [writeCompact, writeCompactMembers, if_pos rfl, hothers, htext]
              simp [memberText]
      | flaw f => cases hclean
      | torn members f => cases hclean

end

/-! ## Over several lines -/

theorem toList_append_colon (out : String) : (out ++ ": ").toList = out.toList ++ [':', ' '] :=
  String.toList_append

theorem exists_writeBreak (out : String) (depth : Nat) :
    ∃ blanks, (writeBreak out depth).toList = out.toList ++ blanks ∧ Blank blanks := by
  induction depth with
  | zero => exact ⟨['\n'], String.toList_push _, by simp [Blank, isBlank]⟩
  | succ depth ih =>
      obtain ⟨blanks, hblanks, hall⟩ := ih
      have hspaces : Blank [' ', ' '] := by simp [Blank, isBlank]
      refine ⟨blanks ++ [' ', ' '], ?_, ?_⟩
      · rw [writeBreak, String.toList_append, hblanks, List.append_assoc]
        rfl
      · intro c hc
        rcases List.mem_append.1 hc with hc | hc
        · exact hall c hc
        · exact hspaces c hc

section

variable {v : Json}

theorem exists_writePrettyItems {items : List Json} (depth : Nat)
    (h : ∀ v ∈ items, ∀ out, Writes out (writePretty out (depth + 1) v) v) (out : String) :
    ∃ text, ((writeBreak (writePrettyItems out (depth + 1) items) depth).push ']').toList =
      out.toList ++ text ∧ ReadsItems items text := by
  induction items generalizing out with
  | nil =>
      obtain ⟨blanks, hblanks, hall⟩ := exists_writeBreak out depth
      refine ⟨_, ?_, readsItems_nil hall⟩
      rw [writePrettyItems, String.toList_push, hblanks, List.append_assoc]
  | cons v items ih =>
      obtain ⟨hv, hitems⟩ := List.forall_mem_cons.1 h
      obtain ⟨blanks, hblanks, hall⟩ := exists_writeBreak (out.push ',') (depth + 1)
      obtain ⟨text, htext, hread⟩ := hv (writeBreak (out.push ',') (depth + 1))
      obtain ⟨others, hothers, hreads⟩ := ih hitems
        (writePretty (writeBreak (out.push ',') (depth + 1)) (depth + 1) v)
      refine ⟨_, ?_, readsItems_cons hread hreads hall⟩
      rw [writePrettyItems, hothers, htext, hblanks]
      simp

theorem exists_writePrettyMembers {members : List (String × Json)} (depth : Nat)
    (h : ∀ m ∈ members, ∀ out, Writes out (writePretty out (depth + 1) m.2) m.2) (out : String) :
    ∃ text, ((writeBreak (writePrettyMembers out (depth + 1) members) depth).push '}').toList =
      out.toList ++ text ∧ ReadsMembers members text := by
  induction members generalizing out with
  | nil =>
      obtain ⟨blanks, hblanks, hall⟩ := exists_writeBreak out depth
      refine ⟨_, ?_, readsMembers_nil hall⟩
      rw [writePrettyMembers, String.toList_push, hblanks, List.append_assoc]
  | cons m members ih =>
      obtain ⟨key, v⟩ := m
      obtain ⟨hv, hmembers⟩ := List.forall_mem_cons.1 h
      obtain ⟨blanks, hblanks, hall⟩ := exists_writeBreak (out.push ',') (depth + 1)
      obtain ⟨keyText, text, hkey, hread, htext⟩ :=
        (hv (writeString (writeBreak (out.push ',') (depth + 1)) key ++ ": ")).member
          (toList_append_colon _)
      obtain ⟨others, hothers, hreads⟩ := ih hmembers (writePretty
        (writeString (writeBreak (out.push ',') (depth + 1)) key ++ ": ") (depth + 1) v)
      refine ⟨_, ?_, readsMembers_cons hkey hread hreads hall blank_space⟩
      rw [writePrettyMembers, hothers, htext, hblanks]
      simp [memberText]

/-- **A clean value** is read back from its text over several lines. -/
theorem exists_writePretty (hclean : v.Clean) (out : String) (depth : Nat) :
    Writes out (writePretty out depth v) v := by
  induction v using Json.induction generalizing out depth with
  | step v ih =>
      cases v with
      | arr items =>
          rw [clean_arr] at hclean
          cases items with
          | nil => exact ⟨_, String.toList_append, reads_arr_nil blank_nil⟩
          | cons v items =>
              have hall : ∀ c ∈ v :: items, ∀ out, Writes out (writePretty out (depth + 1) c) c :=
                fun c hc out => ih c hc (hclean c hc) out (depth + 1)
              obtain ⟨hv, hitems⟩ := List.forall_mem_cons.1 hall
              obtain ⟨blanks, hblanks, hblank⟩ := exists_writeBreak (out.push '[') (depth + 1)
              obtain ⟨text, htext, hread⟩ := hv (writeBreak (out.push '[') (depth + 1))
              obtain ⟨others, hothers, hreads⟩ := exists_writePrettyItems depth hitems
                (writePretty (writeBreak (out.push '[') (depth + 1)) (depth + 1) v)
              refine ⟨_, ?_, reads_arr_cons hread hreads hblank⟩
              rw [writePretty, hothers, htext, hblanks]
              simp
      | obj members =>
          rw [clean_obj] at hclean
          cases members with
          | nil => exact ⟨_, String.toList_append, reads_obj_nil blank_nil⟩
          | cons m members =>
              obtain ⟨key, v⟩ := m
              have hall : ∀ m ∈ (key, v) :: members, ∀ out,
                  Writes out (writePretty out (depth + 1) m.2) m.2 := fun m hm out =>
                ih m.2 (List.mem_map_of_mem hm) (hclean m hm) out (depth + 1)
              obtain ⟨hv, hmembers⟩ := List.forall_mem_cons.1 hall
              obtain ⟨blanks, hblanks, hblank⟩ := exists_writeBreak (out.push '{') (depth + 1)
              obtain ⟨keyText, text, hkey, hread, htext⟩ :=
                (hv (writeString (writeBreak (out.push '{') (depth + 1)) key ++ ": ")).member
                  (toList_append_colon _)
              obtain ⟨others, hothers, hreads⟩ := exists_writePrettyMembers depth hmembers
                (writePretty (writeString (writeBreak (out.push '{') (depth + 1)) key ++ ": ")
                  (depth + 1) v)
              refine ⟨_, ?_, reads_obj_cons hkey hread hreads hblank blank_space⟩
              rw [writePretty, hothers, htext, hblanks]
              simp [memberText]
      | flaw f => cases hclean
      | torn members f => cases hclean
      -- Without a container inside there is nothing to break a line for.
      | _ => exact exists_writeCompact hclean out

end

/-! ## Whole texts -/

theorem endsNumber_nil : EndsNumber [] := fun _ h => by cases h

/-- A text that was written for a value is a document that holds it. -/
theorem parse_of_writes {text : String} {v : Json} (h : Writes "" text v) :
    Document.parse text = .ofValue v := by
  obtain ⟨chars, hchars, hread⟩ := h
  have hvalue := hread.read (4 * text.toList.length + 3) [] (by simp [hchars]; omega) endsNumber_nil
  rw [List.append_nil] at hvalue
  have htext : text.toList = chars := hchars
  unfold Document.parse
  dsimp only
  rw [htext] at hvalue ⊢
  rw [hvalue]
  rfl

/-- **The text of a clean value on one line** is read as that value. -/
theorem parse_compact {v : Json} (hclean : v.Clean) :
    Document.parse v.compact = .ofValue v :=
  parse_of_writes (exists_writeCompact hclean "")

/-- **The text of a clean value over several lines** is read as that value. -/
theorem parse_pretty {v : Json} (hclean : v.Clean) :
    Document.parse v.pretty = .ofValue v :=
  parse_of_writes (exists_writePretty hclean "" 0)

end Json

end InfraGraph
