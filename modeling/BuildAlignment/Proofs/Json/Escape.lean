import BuildAlignment.Json.Escape
import BuildAlignment.Json.Token

/-!
# Written texts

A text that is written with escapes stays inside its quotes and is read back as it was.

* `Json.scan_encode`: a scan that has begun a text takes a written text whole, up to its quote.
* `Json.decode_encode`: a written text is read back.
-/

namespace BuildAlignment.Json

/-! ### The digits of control characters -/

/-- A character that a scan takes as it is, inside a text. -/
def IsPlain (c : Char) : Prop :=
  c ≠ '"' ∧ c ≠ '\\' ∧ ¬ c.toNat < 32

instance (c : Char) : Decidable (IsPlain c) := inferInstanceAs (Decidable (_ ∧ _ ∧ _))

theorem hexDigit_spec : ∀ value < 16, IsPlain (hexDigit value) ∧
    hexValue? (hexDigit value) = some value := by
  decide

theorem hexUnit?_control {c : Char} (h : c.toNat < 32) :
    hexUnit? '0' '0' (hexDigit (c.toNat / 16)) (hexDigit (c.toNat % 16)) = some c.toNat := by
  have hhigh := (hexDigit_spec (c.toNat / 16) (by omega)).2
  have hlow := (hexDigit_spec (c.toNat % 16) (by omega)).2
  have hzero : hexValue? '0' = some 0 := by decide
  rw [hexUnit?, hzero, hhigh, hlow]
  simp only [Option.some.injEq]
  omega

/-! ### The forms of a written character -/

/-- How a character is written, with the piece that is read: by a short escape, by its number, or as
it is. -/
inductive Form (c : Char) : List Char → Piece → Prop
  | short {e : Char} (taken : ¬ e.toNat < 32) (ne : e ≠ 'u') (means : shortEscape? e = some c) :
      Form c ['\\', e] (.char c)
  | control (small : c.toNat < 32) :
      Form c ['\\', 'u', '0', '0', hexDigit (c.toNat / 16), hexDigit (c.toNat % 16)]
        (.unit c.toNat)
  | plain (plain : IsPlain c) : Form c [c] (.char c)

theorem exists_form (c : Char) : ∃ piece, Form c (encodeChar c) piece := by
  unfold encodeChar
  split
  case h_8 hquote hbackslash _ _ _ _ _ =>
    split
    case isTrue hsmall => exact ⟨_, .control hsmall⟩
    case isFalse hlarge => exact ⟨_, .plain ⟨hquote, hbackslash, hlarge⟩⟩
  all_goals exact ⟨_, .short (by decide) (by decide) rfl⟩

/-! ### Scanning -/

namespace Token

variable {read rest : List Char} {done : List Token}

theorem scanFrom?_plain {c : Char} (h : IsPlain c) :
    scanFrom? (.quoted read) done (c :: rest) = scanFrom? (.quoted (c :: read)) done rest := by
  rw [scanFrom?, if_neg h.1, if_neg h.2.1, if_neg h.2.2]

theorem scanFrom?_escape {e : Char} (h : ¬ e.toNat < 32) :
    scanFrom? (.quoted read) done ('\\' :: e :: rest)
      = scanFrom? (.quoted (e :: '\\' :: read)) done rest := by
  rw [scanFrom?, if_neg (by decide), if_pos rfl, scanFrom?, if_neg h]

theorem scanFrom?_form {c : Char} {written : List Char} {piece : Piece}
    (h : Form c written piece) :
    scanFrom? (.quoted read) done (written ++ rest)
      = scanFrom? (.quoted (written.reverse ++ read)) done rest := by
  cases h with
  | short taken _ _ => exact scanFrom?_escape taken
  | control small =>
    have hzero : IsPlain '0' := by decide
    have hhigh := (hexDigit_spec (c.toNat / 16) (by omega)).1
    have hlow := (hexDigit_spec (c.toNat % 16) (by omega)).1
    rw [List.cons_append, List.cons_append, scanFrom?_escape (by decide), List.cons_append,
      scanFrom?_plain hzero, List.cons_append, scanFrom?_plain hzero, List.cons_append,
      scanFrom?_plain hhigh, List.cons_append, scanFrom?_plain hlow]
    rfl
  | plain plain => exact scanFrom?_plain plain

/-- A written text has no quote of its own, so a scan takes the whole of it. -/
theorem scan_encode (cs : List Char) :
    scanFrom? (.quoted read) done (encode cs ++ '"' :: rest)
      = scanFrom? .between (quoted (read.reverse ++ encode cs) :: done) rest := by
  induction cs generalizing read with
  | nil =>
    rw [encode, List.flatMap_nil, List.nil_append, scanFrom?, if_pos rfl, List.append_nil]
  | cons c cs ih =>
    have hsplit : encode (c :: cs) = encodeChar c ++ encode cs := List.flatMap_cons
    obtain ⟨piece, hform⟩ := exists_form c
    rw [hsplit, List.append_assoc, scanFrom?_form hform, ih, List.reverse_append,
      List.reverse_reverse, List.append_assoc]

end Token

/-! ### Reading back -/

theorem pieces?_form {c : Char} {written : List Char} {piece : Piece} (h : Form c written piece)
    (rest : List Char) :
    pieces? (written ++ rest) = (pieces? rest).map (piece :: ·) := by
  cases h with
  | @short e _ ne means =>
    rw [List.cons_append, List.cons_append, List.nil_append, pieces?, means]
    · cases pieces? rest with
      | none => rfl
      | some found => rfl
    · intro a b c d rest' heq
      exact absurd heq ne
  | control small =>
    show pieces? ('\\' :: 'u' :: '0' :: '0' :: hexDigit _ :: hexDigit _ :: rest) = _
    rw [pieces?, hexUnit?_control small]
    cases pieces? rest with
    | none => rfl
    | some found => rfl
  | plain plain =>
    have hbackslash : c ≠ '\\' := plain.2.1
    rw [List.cons_append, List.nil_append, pieces?]
    all_goals simp [hbackslash]

theorem characters?_form {c : Char} {written : List Char} {piece : Piece}
    (h : Form c written piece) (rest : List Piece) :
    characters? (piece :: rest) = (characters? rest).map (c :: ·) := by
  cases h with
  | short _ _ _ => rw [characters?]
  | control small =>
    -- A control character is no half of a pair, whatever follows it.
    have hhigh : isHigh c.toNat = false := by simp [isHigh]; omega
    have hlow : isLow c.toNat = false := by simp [isLow]; omega
    cases rest with
    | nil => simp [characters?, hhigh, hlow]
    | cons next rest =>
      cases next with
      | char d => simp [characters?, hhigh, hlow]
      | unit value => simp [characters?, hhigh, hlow]
  | plain _ => rw [characters?]

theorem pieces?_encode (cs : List Char) :
    ∃ found, pieces? (encode cs) = some found ∧ characters? found = some cs := by
  induction cs with
  | nil => exact ⟨[], rfl, rfl⟩
  | cons c cs ih =>
    obtain ⟨found, hfound, hcharacters⟩ := ih
    obtain ⟨piece, hform⟩ := exists_form c
    have hsplit : encode (c :: cs) = encodeChar c ++ encode cs := List.flatMap_cons
    refine ⟨piece :: found, ?_, ?_⟩
    · rw [hsplit, pieces?_form hform, hfound]
      rfl
    · rw [characters?_form hform, hcharacters]
      rfl

theorem decode_encode (cs : List Char) : decode (encode cs) = .text (String.ofList cs) := by
  obtain ⟨found, hfound, hcharacters⟩ := pieces?_encode cs
  simp only [decode, hfound, hcharacters]

end BuildAlignment.Json
