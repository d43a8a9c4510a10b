import LedgerAudit.Certificate.Basic
import LedgerAudit.Proofs.Base64
import LedgerAudit.Proofs.Text.Blank

/-!
# Armours and what they hold

An armour is the base64 text of some bytes, cut into lines at any places, between a header and a
footer. Whatever the places are and whatever follows the footer, the same bytes are read back.
-/

namespace LedgerAudit

namespace Pem

variable {der : Bytes}

/-- A line of base64 symbols, with blanks behind them that are not line feeds. -/
structure BodyLine where
  symbols : Bytes
  blanks : Bytes
  isBlank_blanks : ∀ b ∈ blanks, isBlank b ∧ b ≠ 10

def BodyLine.bytes (l : BodyLine) : Bytes := l.symbols ++ l.blanks ++ [10]

/-- A way to write bytes as an armour. -/
structure Armour (der : Bytes) where
  leading : Bytes
  isBlank_leading : ∀ b ∈ leading, isBlank b
  /-- Whether the header ends in a carriage return before its line feed. -/
  carriageReturn : Bool
  body : List BodyLine
  flatMap_symbols : body.flatMap BodyLine.symbols = Base64.standard.encode der
  /-- What the footer says after its first word. -/
  footer : String
  notMem_footer : 10 ∉ Bytes.ofText footer

namespace Armour

def header (a : Armour der) : Bytes :=
  ascii "-----BEGIN CERTIFICATE-----" ++ if a.carriageReturn then [13] else []

/-- The lines of an armour, and any bytes after the last one. -/
def bytes (a : Armour der) (after : Bytes) : Bytes :=
  a.leading ++ (a.header ++ 10 :: (a.body.flatMap BodyLine.bytes ++
    (endLine ++ Bytes.ofText a.footer ++ 10 :: after)))

end Armour

theorem lines_append {line : Bytes} (hline : 10 ∉ line) (rest : Bytes) :
    lines (line ++ 10 :: rest) = (line ++ [10]) :: lines rest := by
  induction line with
  | nil => simp [lines]
  | cons b line ih =>
      obtain ⟨hb, hline⟩ := not_or.mp (mt List.mem_cons.mpr hline)
      rw [List.cons_append, lines, if_neg (Ne.symm hb), ih hline]
      rfl

theorem isBlank_ofNat_toNat : ∀ b : UInt8, isBlank b → Text.isBlank (Char.ofNat b.toNat) :=
  Bytes.forall_byte (by decide +kernel)

theorem toNat_lt_of_isBlank : ∀ b : UInt8, isBlank b → b.toNat < 128 :=
  Bytes.forall_byte (by decide +kernel)

/-- What holds of every base64 symbol: it is a character of its own, and neither a blank nor a
dash. -/
structure IsSymbol (b : UInt8) : Prop where
  lt : b.toNat < 128
  isBlank_eq_false : Text.isBlank (Char.ofNat b.toNat) = false
  ne_dash : b ≠ 45

theorem isSymbol_of_mem_encode : ∀ b ∈ Base64.standard.encode der, IsSymbol b := by
  have hall : ∀ n < 64, (Base64.standard.symbol n).toNat < 128 ∧
      Text.isBlank (Char.ofNat (Base64.standard.symbol n).toNat) = false ∧
      Base64.standard.symbol n ≠ 45 := by
    decide +kernel
  refine Base64.Alphabet.forall_mem_encode (fun n hn => ?_) ⟨by decide, by decide, by decide⟩ der
  obtain ⟨hlt, hblank, hdash⟩ := hall n hn
  exact ⟨hlt, hblank, hdash⟩

namespace BodyLine

variable (l : BodyLine)

theorem bytes_lt (hsymbols : ∀ b ∈ l.symbols, IsSymbol b) : ∀ b ∈ l.bytes, b.toNat < 128 := by
  intro b hb
  simp only [bytes, List.mem_append, List.mem_singleton] at hb
  rcases hb with (hb | hb) | rfl
  · exact (hsymbols b hb).lt
  · exact toNat_lt_of_isBlank b (l.isBlank_blanks b hb).1
  · decide

/-- The blanks are cut off a line of the body and the symbols are left. -/
theorem trimLine_bytes (hsymbols : ∀ b ∈ l.symbols, IsSymbol b) :
    trimLine l.bytes = some l.symbols := by
  let text (bs : Bytes) : List Char := bs.map fun b => Char.ofNat b.toNat
  have htrim : Text.trimEnd (text l.bytes) = text l.symbols := by
    have hsplit : text l.bytes = text l.symbols ++ text (l.blanks ++ [10]) := by
      simp [text, bytes]
    rw [hsplit]
    apply Text.trimEnd_append
    · exact List.forall_mem_map.mpr fun b hb => (hsymbols b hb).isBlank_eq_false
    · refine List.forall_mem_map.mpr fun b hb => isBlank_ofNat_toNat b ?_
      rcases List.mem_append.mp hb with hb | hb
      · exact (l.isBlank_blanks b hb).1
      · obtain rfl := List.mem_singleton.mp hb
        rfl
  have htext := Bytes.toText?_of_forall_lt (l.bytes_lt hsymbols)
  have hback := Bytes.ofText_ofList fun b hb => (hsymbols b hb).lt
  simp only [trimLine, htext, Option.bind_eq_bind, Option.bind_some, String.toList_ofList, htrim,
    text, hback, Option.pure_def]

/-- No line of the body is taken for the footer, for it has no dash. -/
theorem not_endLine_prefix_bytes (hsymbols : ∀ b ∈ l.symbols, IsSymbol b) :
    ¬endLine <+: l.bytes := by
  intro hprefix
  have hdash : (45 : UInt8) ∈ l.bytes := hprefix.subset (by decide)
  simp only [bytes, List.mem_append, List.mem_singleton] at hdash
  rcases hdash with (hdash | hdash) | hdash
  · exact (hsymbols _ hdash).ne_dash rfl
  · exact absurd (l.isBlank_blanks _ hdash).1 (by decide)
  · exact absurd hdash (by decide)

theorem notMem_symbols_append_blanks (hsymbols : ∀ b ∈ l.symbols, IsSymbol b) :
    10 ∉ l.symbols ++ l.blanks := by
  intro hfeed
  rcases List.mem_append.mp hfeed with hfeed | hfeed
  · exact absurd (hsymbols _ hfeed).isBlank_eq_false (by decide)
  · exact (l.isBlank_blanks _ hfeed).2 rfl

/-- A line of the body adds its symbols and nothing else. -/
theorem body_lines_append (hsymbols : ∀ b ∈ l.symbols, IsSymbol b) (rest : Bytes) :
    Pem.body (lines (l.bytes ++ rest)) = (Pem.body (lines rest)).map (l.symbols ++ ·) := by
  have hlines : lines (l.bytes ++ rest) = l.bytes :: lines rest := by
    have h := lines_append (l.notMem_symbols_append_blanks hsymbols) rest
    simpa [bytes] using h
  have hfooter : endLine.isPrefixOf l.bytes = false := by
    rw [Bool.eq_false_iff, ne_eq, List.isPrefixOf_iff_prefix]
    exact l.not_endLine_prefix_bytes hsymbols
  rw [hlines, Pem.body, l.trimLine_bytes hsymbols, hfooter]
  cases Pem.body (lines rest) <;> rfl

end BodyLine

/-- Whichever lines symbols stand on, they are put together again. -/
theorem body_lines_flatMap (ls : List BodyLine) (hsymbols : ∀ l ∈ ls, ∀ b ∈ l.symbols, IsSymbol b)
    (rest : Bytes) :
    body (lines (ls.flatMap BodyLine.bytes ++ rest)) =
      (body (lines rest)).map (ls.flatMap BodyLine.symbols ++ ·) := by
  induction ls with
  | nil => simp
  | cons l ls ih =>
      obtain ⟨hl, hls⟩ := List.forall_mem_cons.mp hsymbols
      rw [List.flatMap_cons, List.append_assoc, l.body_lines_append hl, ih hls, Option.map_map]
      simp [Function.comp_def]

/-- A footer ends the body, whatever its other words are and whatever follows it. -/
theorem body_lines_footer {footer : String} (hfooter : 10 ∉ Bytes.ofText footer) (after : Bytes) :
    body (lines (endLine ++ Bytes.ofText footer ++ 10 :: after)) = some [] := by
  have hfeed : 10 ∉ endLine ++ Bytes.ofText footer := by
    rw [List.mem_append, not_or]
    exact ⟨by decide, hfooter⟩
  have htext : endLine ++ Bytes.ofText footer ++ [10] =
      Bytes.ofText ("-----END " ++ footer ++ "\n") := by
    rw [Bytes.ofText_append, Bytes.ofText_append]
    rfl
  have hprefix : endLine.isPrefixOf (endLine ++ Bytes.ofText footer ++ [10]) = true := by
    rw [List.isPrefixOf_iff_prefix, List.append_assoc]
    exact List.prefix_append _ _
  rw [lines_append hfeed, body, hprefix, htext, trimLine, Bytes.toText?_ofText]
  rfl

theorem decodeGroups_encode (bytes : Bytes) :
    decodeGroups (Base64.standard.encode bytes) = some bytes := by
  have hlawful := Base64.Alphabet.standard_lawful
  fun_induction Base64.Alphabet.encode Base64.standard bytes with
  | case1 => rfl
  | case2 x =>
      rw [decodeGroups, hlawful.decodeGroup_one x]
      rfl
  | case3 x y =>
      rw [decodeGroups, hlawful.decodeGroup_two x y]
      rfl
  | case4 x y z rest n ih =>
      have hy := hlawful.symbol_ne_padding (n / 64 % 64) (by omega)
      have hz := hlawful.symbol_ne_padding (n % 64) (by omega)
      rw [decodeGroups, Base64.Alphabet.decodeGroup_eq_decodeFull hy hz,
        hlawful.decodeFull_three x y z, ih]
      rfl

namespace Armour

variable (a : Armour der) (after : Bytes)

theorem trimStart_bytes : trimStart (a.bytes after) = a.header ++ 10 ::
    (a.body.flatMap BodyLine.bytes ++ (endLine ++ Bytes.ofText a.footer ++ 10 :: after)) := by
  rw [trimStart, bytes, List.dropWhile_append_of_pos a.isBlank_leading]
  rfl

theorem isArmoured_bytes : isArmoured (a.bytes after) = true := by
  rw [isArmoured, a.trimStart_bytes, List.isPrefixOf_iff_prefix]
  have hmarker : marker <+: a.header := by
    rw [header]
    cases a.carriageReturn <;> decide
  exact hmarker.trans (List.prefix_append _ _)

theorem afterHeader_lines (rest : Bytes) :
    afterHeader (lines (a.header ++ 10 :: rest)) = some (lines rest) := by
  obtain ⟨hfeed, hlt, hprefix, hdashes⟩ : 10 ∉ a.header ∧
      (∀ b ∈ a.header ++ [10], b.toNat < 128) ∧ beginLine.isPrefixOf (a.header ++ [10]) = true ∧
      hasDashes ((a.header ++ [10]).drop beginLine.length) = true := by
    rw [header]
    cases a.carriageReturn <;> decide +kernel
  rw [lines_append hfeed]
  simp [afterHeader, Bytes.toText?_of_forall_lt hlt, hprefix, hdashes]

/-- What an armour holds is read back from any text of it, whatever follows. -/
theorem decode_bytes : decode (a.bytes after) = some der := by
  have hsymbols : ∀ l ∈ a.body, ∀ b ∈ l.symbols, IsSymbol b := by
    intro l hl b hb
    refine @isSymbol_of_mem_encode der b ?_
    rw [← a.flatMap_symbols]
    exact List.mem_flatMap.mpr ⟨l, hl, hb⟩
  rw [decode, a.trimStart_bytes, a.afterHeader_lines, Option.bind_eq_bind, Option.bind_some,
    body_lines_flatMap a.body hsymbols, body_lines_footer a.notMem_footer, Option.map_some,
    List.append_nil, a.flatMap_symbols]
  exact decodeGroups_encode der

/-- An armour of one line. -/
def oneLine (der : Bytes) : Armour der where
  leading := []
  isBlank_leading := nofun
  carriageReturn := false
  body := [⟨Base64.standard.encode der, [], nofun⟩]
  flatMap_symbols := by simp
  footer := "CERTIFICATE-----"
  notMem_footer := by decide

/-- An armour of three lines, one of which is empty, with a footer that does not fit its header. -/
def wrapped (der : Bytes) : Armour der where
  leading := [10, 32]
  isBlank_leading := by simp [isBlank]
  carriageReturn := true
  body := [⟨(Base64.standard.encode der).take 64, [32, 13], by simp [isBlank]⟩, ⟨[], [], nofun⟩,
    ⟨(Base64.standard.encode der).drop 64, [], nofun⟩]
  flatMap_symbols := by simp
  footer := "X509 CRL"
  notMem_footer := by decide

end Armour

end Pem

namespace Certificate

variable {der : Bytes} (a : Pem.Armour der) (after : Bytes)

theorem derOf_armour : derOf (a.bytes after) = .ok der := by
  rw [derOf, if_pos (a.isArmoured_bytes after), a.decode_bytes]

theorem read_armour : read (a.bytes after) = parse der := by
  rw [read, derOf_armour]
  rfl

end Certificate

end LedgerAudit
