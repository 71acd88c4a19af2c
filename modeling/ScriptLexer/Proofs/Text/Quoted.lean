import ScriptLexer.Text.Quoted
import ScriptLexer.Proofs.Text.StringReader

/-! Quoted text is read back, whatever follows it: the quote in use is escaped inside, so the next one ends
the text. It takes a single line. -/
namespace ScriptLexer

def quotes : List Char := ['\x27', '\x22']

/-- How characters are written in quoted text. -/
def quotedSpelling : Spelling where
  plain c := !isNewline c
  letters := [('\\', '\\'), ('\x27', '\x27'), ('\x22', '\x22'), ('n', '\n'), ('r', '\r'), ('t', '\t')]
  widths := [('x', 2), ('u', 4), ('U', 8)]

/-- The text that is quoted, and what follows the quotes. -/
def unquoted? : Text → Option (Text × Text)
  | [] => none
  | quote :: rest =>
    if quote ∈ quotes then
      (quotedSpelling.read? quote rest).bind fun (codes, left) => (codes.mapM char?).map (·, left)
    else none

theorem quoteFor_mem (text : Text) : quoteFor text ∈ quotes := by
  unfold quoteFor
  split <;> decide

theorem read?_codePointEscape {quote : Char} (other : '\\' ≠ quote) {code : Nat} (h : code < 0x110000)
    (rest : Text) : quotedSpelling.read? quote (codePointEscape code ++ rest)
      = (quotedSpelling.read? quote rest).map (Spelling.prepend [code]) := by
  unfold codePointEscape
  split
  · rename_i narrow
    exact Spelling.read?_hex other rfl rfl (by decide) narrow rest
  split
  · rename_i basic
    exact Spelling.read?_hex other rfl rfl (by decide) basic rest
  · exact Spelling.read?_hex other rfl rfl (by decide) (Nat.lt_trans h (by decide)) rest

/-- A character is written with a letter, as itself, or by its code point. -/
theorem escaped_cases {quote : Char} (h : quote ∈ quotes) (c : Char) :
    (∃ letter, (letter, c) ∈ quotedSpelling.letters ∧ escaped quote c = ['\\', letter]) ∨
    (c ≠ quote ∧ c ≠ '\\' ∧ c ≠ '\n' ∧ escaped quote c = [c]) ∨
    escaped quote c = codePointEscape c.toNat := by
  unfold escaped
  split
  · subst c
    exact .inl ⟨'\\', by decide, rfl⟩
  rename_i backslash
  split
  · subst c
    have table : ∀ quote ∈ quotes, (quote, quote) ∈ quotedSpelling.letters := by decide
    exact .inl ⟨quote, table quote h, rfl⟩
  rename_i unquoted
  split
  · subst c
    exact .inl ⟨'n', by decide, rfl⟩
  rename_i newline
  split
  · subst c
    exact .inl ⟨'r', by decide, rfl⟩
  split
  · subst c
    exact .inl ⟨'t', by decide, rfl⟩
  split
  · exact .inr (.inl ⟨unquoted, backslash, newline, rfl⟩)
  · exact .inr (.inr rfl)

theorem read?_escaped {quote : Char} (h : quote ∈ quotes) (c : Char) (rest : Text) :
    quotedSpelling.read? quote (escaped quote c ++ rest)
      = (quotedSpelling.read? quote rest).map (Spelling.prepend [c.toNat]) := by
  have backslashes : ∀ quote ∈ quotes, '\\' ≠ quote := by decide
  have other := backslashes quote h
  rcases escaped_cases h c with ⟨letter, entry, written⟩ | ⟨unquoted, backslash, newline, written⟩ | written
  · have table : ∀ entry ∈ quotedSpelling.letters, quotedSpelling.letters.lookup entry.1 = some entry.2 := by
      decide
    rw [written]
    exact Spelling.read?_letter other (table _ entry) rest
  · have plain : quotedSpelling.plain c := by simpa [quotedSpelling, isNewline] using newline
    rw [written]
    exact Spelling.read?_plain unquoted backslash plain rest
  · rw [written]
    exact read?_codePointEscape other (toNat_lt c) rest

theorem mapM_char?_toNat (text : Text) : (text.flatMap fun c => [c.toNat]).mapM char? = some text := by
  induction text with
  | nil => rfl
  | cons c text ih => simp [char?_toNat, ih]

/-- Quoted text is read back, whatever follows it. -/
theorem unquoted?_quoted (text rest : Text) : unquoted? (quoted text ++ rest) = some (text, rest) := by
  have quote := quoteFor_mem text
  have read := Spelling.read?_flatMap (read?_escaped quote) text rest
  have form : quoted text ++ rest
      = quoteFor text :: (text.flatMap (escaped (quoteFor text)) ++ quoteFor text :: rest) := by
    simp [quoted]
  rw [form, unquoted?, if_pos quote, read]
  simp [mapM_char?_toNat]

theorem quoted_append_inj {text text' rest rest' : Text} (h : quoted text ++ rest = quoted text' ++ rest') :
    text = text' ∧ rest = rest' := by
  have read := congrArg unquoted? h
  rw [unquoted?_quoted, unquoted?_quoted] at read
  exact Prod.mk.inj (Option.some.inj read)

theorem newline_not_mem_codePointEscape (code : Nat) : '\n' ∉ codePointEscape code := by
  have digits (width : Nat) : '\n' ∉ hex width code := by
    have each : ∀ n < 16, '\n' ≠ Nat.digitChar n := by decide
    intro member
    exact forall_mem_hex each width code _ member rfl
  unfold codePointEscape
  split
  · simp [digits]
  split <;> simp [digits]

theorem newline_not_mem_escaped {quote : Char} (h : quote ∈ quotes) (c : Char) : '\n' ∉ escaped quote c := by
  rcases escaped_cases h c with ⟨letter, entry, written⟩ | ⟨-, -, newline, written⟩ | written
  · have table : ∀ entry ∈ quotedSpelling.letters, '\n' ∉ ['\\', entry.1] := by decide
    rw [written]
    exact table _ entry
  · rw [written, List.mem_singleton]
    exact Ne.symm newline
  · rw [written]
    exact newline_not_mem_codePointEscape c.toNat

theorem newline_not_mem_quoted (text : Text) : '\n' ∉ quoted text := by
  have quote := quoteFor_mem text
  have other : ∀ quote ∈ quotes, '\n' ≠ quote := by decide
  have body : '\n' ∉ text.flatMap (escaped (quoteFor text)) := by
    intro member
    obtain ⟨c, -, inside⟩ := List.mem_flatMap.1 member
    exact newline_not_mem_escaped quote c inside
  simp [quoted, body, other _ quote]

end ScriptLexer
