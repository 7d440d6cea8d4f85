/-
Two views of a compiled contract.

The hexadecimal form shows the bytes of a program, and the listing its
instructions under the headers of their functions.  Both show the same program:
the lines of the listing are the instructions that are read back from the
bytes, each at its address, and a header stands where its function starts.
-/

import ContractCompiler.Artifact.Listing
import ContractCompiler.Proofs.ProgramLayout
import ContractCompiler.Proofs.Unstyled
import ContractCompiler.Proofs.Writable
import ContractCompiler.Text.Identifier

namespace ContractCompiler

/-! ### Hexadecimal numerals -/

private theorem hexDigitValue_digitChar {digit : Nat} (small : digit < 16) :
    hexDigitValue digit.digitChar = some digit := by
  have each : ∀ digit : Fin 16,
      hexDigitValue digit.val.digitChar = some digit.val := by decide
  exact each ⟨digit, small⟩

def readHexadecimal (value : Nat) : List Char → Option Nat
  | [] => some value
  | digit :: rest =>
      (hexDigitValue digit).bind fun digit =>
        readHexadecimal (16 * value + digit) rest

theorem readHexadecimal_append (value : Nat) (first second : List Char) :
    readHexadecimal value (first ++ second) =
      (readHexadecimal value first).bind fun value =>
        readHexadecimal value second := by
  induction first generalizing value with
  | nil =>
      rfl
  | cons digit rest inductionHypothesis =>
      rw [List.cons_append, readHexadecimal, readHexadecimal]
      cases hexDigitValue digit with
      | none => rfl
      | some found => exact inductionHypothesis _

private theorem readHexadecimal_digit {digit : Nat} (value : Nat)
    (small : digit < 16) :
    readHexadecimal value [digit.digitChar] = some (16 * value + digit) := by
  rw [readHexadecimal, hexDigitValue_digitChar small]
  rfl

private theorem readHexadecimal_toDigits (value : Nat) :
    readHexadecimal 0 (Nat.toDigits 16 value) = some value := by
  induction value using Nat.strong_induction_on with
  | _ value inductionHypothesis =>
      rw [Nat.toDigits_eq_if (by decide)]
      split
      next small =>
        rw [readHexadecimal_digit 0 small, Nat.mul_zero, Nat.zero_add]
      next large =>
        have less : value / 16 < value := by omega
        rw [readHexadecimal_append, inductionHypothesis _ less,
          Option.bind_some, readHexadecimal_digit _
            (Nat.mod_lt _ (by decide)), Nat.div_add_mod]

private theorem readHexadecimal_zeros (count : Nat) (digits : List Char) :
    readHexadecimal 0 (List.replicate count '0' ++ digits) =
      readHexadecimal 0 digits := by
  induction count with
  | zero =>
      rfl
  | succ count inductionHypothesis =>
      exact inductionHypothesis

/-- A numeral of any width is read back. -/
theorem readHexadecimal_hexadecimal (width value : Nat) :
    readHexadecimal 0 (hexadecimal width value).toList = some value := by
  rw [hexadecimal, String.toList_ofList, padLeft, readHexadecimal_zeros,
    readHexadecimal_toDigits]

private theorem readHexBytes_hexBytes (bytes : List UInt8) :
    readHexBytes (hexBytes bytes).toList = some bytes := by
  rw [hexBytes, String.toList_ofList]
  induction bytes with
  | nil =>
      rfl
  | cons byte rest inductionHypothesis =>
      have bound := byte.toNat_lt
      have halves : 16 * (byte.toNat / 16) + byte.toNat % 16 =
          byte.toNat := Nat.div_add_mod _ _
      rw [List.flatMap_cons, hexByte, List.cons_append, List.cons_append,
        List.nil_append, readHexBytes,
        hexDigitValue_digitChar (by omega), hexDigitValue_digitChar (by omega),
        inductionHypothesis]
      simp only [Option.bind_eq_bind, Option.bind_some, halves,
        UInt8.ofNat_toNat]
      rfl

/-! ### Plain characters -/

private theorem digitChar_ne_escape {digit : Nat} (small : digit < 16) :
    '\x1b' ≠ digit.digitChar := by
  have each : ∀ digit : Fin 16, '\x1b' ≠ digit.val.digitChar := by decide
  exact each ⟨digit, small⟩

private theorem clean_toDigits (value : Nat) :
    '\x1b' ∉ Nat.toDigits 16 value := by
  induction value using Nat.strong_induction_on with
  | _ value inductionHypothesis =>
      rw [Nat.toDigits_eq_if (by decide)]
      split
      next small =>
        rw [List.mem_singleton]
        exact digitChar_ne_escape small
      next large =>
        rw [List.mem_append, List.mem_singleton, not_or]
        exact ⟨inductionHypothesis _ (by omega),
          digitChar_ne_escape (Nat.mod_lt _ (by decide))⟩

private theorem clean_hexadecimal (width value : Nat) :
    '\x1b' ∉ (hexadecimal width value).toList := by
  rw [hexadecimal, String.toList_ofList, padLeft, List.mem_append, not_or]
  constructor
  · intro member
    cases List.eq_of_mem_replicate member
  · exact clean_toDigits value

private theorem Word.clean_render (word : Word) :
    '\x1b' ∉ word.render.toList := by
  rw [render, hexBytes, String.toList_ofList]
  intro member
  obtain ⟨byte, _, inside⟩ := List.mem_flatMap.mp member
  rw [hexByte, List.mem_cons, List.mem_singleton] at inside
  have bound := byte.toNat_lt
  rcases inside with high | low
  · exact digitChar_ne_escape (by omega) high
  · exact digitChar_ne_escape (by omega) low

private theorem Opcode.clean_mnemonic (opcode : Opcode) :
    '\x1b' ∉ opcode.mnemonic.toList := by
  cases opcode <;> decide

section

variable [IdentifierCharacters]

private theorem clean_of_identifies {name : String}
    (identifies : Identifies name) : '\x1b' ∉ name.toList := by
  obtain ⟨first, rest, spelled, starts, parts, _⟩ := identifies
  have outside : isIdentifierPart '\x1b' = false :=
    isIdentifierPart_of_ascii (by decide)
  rw [spelled]
  intro member
  rcases List.mem_cons.mp member with same | member
  · rw [← same] at starts
    cases outside.symm.trans (isIdentifierPart_of_start starts)
  · cases outside.symm.trans (parts _ member)

/-- The functions of a contract that is read from a source text have names that
are identifiers. -/
theorem Contract.identifies_of_parse {source : String} {contract : Contract}
    (parsed : Contract.parse source = .ok contract) :
    ∀ function ∈ contract.functions, Identifies function.name := by
  unfold Contract.parse at parsed
  split at parsed
  next found read =>
    cases parsed
    obtain ⟨tree, tokensEq, rfl, _⟩ := contract_derived
      (Reading.gives_iff_outcome.mpr (Prod.ext read rfl))
    intro function member
    obtain ⟨functionTree, inside, rfl⟩ := List.mem_map.mp member
    have named : functionTree.name.val ∈ tree.tokens := by
      have among : functionTree.name.val ∈
          tree.functions.flatMap FunctionTree.tokens :=
        List.mem_flatMap.mpr
          ⟨functionTree, inside, by simp [FunctionTree.tokens]⟩
      simp [ContractTree.tokens, among]
    rw [tokensEq] at named
    exact (tokensFrom_spelled .start source.toList _
      (List.takeWhile_subset _ named)).name functionTree.name.property
  next => cases parsed

end

namespace Artifact

/-! ### The plain listing -/

structure Stretch where
  entry : FunctionEntry
  code : List Instruction

def headerText (entry : FunctionEntry) : String :=
  "func " ++ entry.name ++ " @ 0x" ++ hexadecimal 4 entry.offset ++ "\n"

def lineText (address : Nat) (instruction : Instruction) : String :=
  "  " ++ hexadecimal 4 address ++ "  " ++ instruction.opcode.mnemonic ++
    String.join (instruction.operands.map fun word => " " ++ word.render) ++
    "\n"

/-- The lines of some instructions, the first of them at an address.  Each
stands as many bytes further on as the instructions in front of it have. -/
def lineTexts (base : Nat) (code : List Instruction) : List String :=
  code.mapIdx fun index instruction =>
    lineText (base + (bytesOf (code.take index)).length) instruction

def Stretch.text (stretch : Stretch) : String :=
  headerText stretch.entry ++
    String.join (lineTexts stretch.entry.offset stretch.code)

theorem lineTexts_cons (base : Nat) (instruction : Instruction)
    (rest : List Instruction) :
    lineTexts base (instruction :: rest) =
      lineText base instruction ::
        lineTexts (base + (Extent.ofInstruction instruction).bytes) rest := by
  have shifted : ∀ index,
      base + (bytesOf ((instruction :: rest).take (index + 1))).length =
        base + (Extent.ofInstruction instruction).bytes +
          (bytesOf (rest.take index)).length := by
    intro index
    rw [List.take_succ_cons, length_bytesOf, length_bytesOf, Extent.ofCode,
      Extent.add, Nat.add_assoc]
  rw [lineTexts, List.mapIdx_cons, lineTexts]
  simp only [shifted]
  rfl

theorem lineTexts_append (base : Nat) (first second : List Instruction) :
    lineTexts base (first ++ second) =
      lineTexts base first ++
        lineTexts (base + (Extent.ofCode first).bytes) second := by
  induction first generalizing base with
  | nil =>
      rfl
  | cons instruction rest inductionHypothesis =>
      rw [List.cons_append, lineTexts_cons, inductionHypothesis,
        lineTexts_cons, List.cons_append, Extent.ofCode, Extent.add,
        Nat.add_assoc]

/-! ### Lines and headers -/

private theorem shows_header {entry : FunctionEntry}
    (clean : '\x1b' ∉ entry.name.toList) :
    Shows (header entry) (headerText entry) := by
  have blank : Shows " " " " := .of_clean (by decide)
  have keyword : Shows "func" "func" := .of_clean (by decide)
  have address := Shows.append
    (.of_clean (by decide : '\x1b' ∉ "@ 0x".toList))
    (.of_clean (clean_hexadecimal 4 entry.offset))
  have whole := (keyword.paintBold .magenta).append blank
    |>.append ((Shows.of_clean clean).paintBold .white)
    |>.append blank
    |>.append (address.paint .dim)
    |>.append (.of_clean (by decide : '\x1b' ∉ "\n".toList))
  have same : headerText entry = "func" ++ " " ++ entry.name ++ " " ++
      ("@ 0x" ++ hexadecimal 4 entry.offset) ++ "\n" := by
    simp [headerText, ← String.toList_inj]
  rw [same]
  exact whole

private theorem shows_operands (words : List Word) :
    Shows (String.join ((words.map CodeUnit.ofWord).map fun operand =>
        " " ++ Style.yellow.paint operand.text))
      (String.join (words.map fun word => " " ++ word.render)) := by
  induction words with
  | nil =>
      exact .empty
  | cons word rest inductionHypothesis =>
      have first := Shows.append (.of_clean (by decide : '\x1b' ∉ " ".toList))
        ((Shows.of_clean word.clean_render).paint .yellow)
      rw [List.map_cons, List.map_cons, List.map_cons, String.join_cons,
        String.join_cons]
      exact first.append inductionHypothesis

private theorem shows_line (address : Nat) (instruction : Instruction) :
    Shows
      (instructionLine address (.ofOpcode instruction.opcode)
        (instruction.operands.map .ofWord))
      (lineText address instruction) := by
  have blanks : Shows "  " "  " := .of_clean (by decide)
  exact blanks.append
      ((Shows.of_clean (clean_hexadecimal 4 address)).paint .dim)
    |>.append blanks
    |>.append ((Shows.of_clean instruction.opcode.clean_mnemonic).paint .cyan)
    |>.append (shows_operands instruction.operands)
    |>.append (.of_clean (by decide))

/-! ### The order of lines and headers -/

section

variable {base offset : Nat} {written : Bool}
  {name : String} {entries : List FunctionEntry}

private theorem headersAt_behind
    (later : ∀ entry ∈ entries, offset < entry.offset) :
    headersAt offset written entries = ([], entries) := by
  cases entries with
  | nil => rfl
  | cons entry rest =>
      have apart : entry.offset ≠ offset :=
        Nat.ne_of_gt (later entry List.mem_cons_self)
      rw [headersAt, if_neg apart]

private theorem headersAt_first
    (later : ∀ entry ∈ entries, offset < entry.offset) :
    headersAt offset written (⟨name, offset⟩ :: entries) =
      ([(if written then "\n" else "") ++ header ⟨name, offset⟩],
        entries) := by
  rw [headersAt, if_pos rfl, headersAt_behind later]

/-- The operands of an instruction end where the next one starts. -/
theorem span_operands (instruction : Instruction)
    (rest : List Instruction) :
    (instruction.operands.map CodeUnit.ofWord ++ unitsOf rest).takeWhile
        CodeUnit.isOperand = instruction.operands.map .ofWord ∧
      (instruction.operands.map CodeUnit.ofWord ++ unitsOf rest).dropWhile
        CodeUnit.isOperand = unitsOf rest := by
  have operands : ∀ unit ∈ instruction.operands.map CodeUnit.ofWord,
      unit.isOperand = true := by
    intro unit member
    obtain ⟨word, _, rfl⟩ := List.mem_map.mp member
    rfl
  rw [List.takeWhile_append_of_pos operands,
    List.dropWhile_append_of_pos operands]
  cases rest with
  | nil => exact ⟨List.append_nil _, rfl⟩
  | cons next others => exact ⟨List.append_nil _, rfl⟩

theorem listingFrom_nil :
    listingFrom offset written entries (unitsOf []) = [] := by
  show listingFrom offset written entries [] = []
  rw [listingFrom]

theorem listingFrom_cons (instruction : Instruction)
    (rest : List Instruction) :
    listingFrom offset written entries (unitsOf (instruction :: rest)) =
      (headersAt offset written entries).1 ++
        instructionLine offset (.ofOpcode instruction.opcode)
          (instruction.operands.map .ofWord) ::
        listingFrom (offset + (Extent.ofInstruction instruction).bytes) true
          (headersAt offset written entries).2 (unitsOf rest) := by
  obtain ⟨taken, dropped⟩ := span_operands instruction rest
  have size : Assembly.sizeOfUnits instruction.units =
      (Extent.ofInstruction instruction).bytes := by
    show 1 + Assembly.sizeOfUnits (instruction.operands.map .ofWord) = _
    rw [Assembly.sizeOfUnits_words]
    rfl
  rw [unitsOf_cons, Instruction.units, List.cons_append, listingFrom]
  simp only [taken, dropped]
  rw [← Instruction.units, size]

/-- The header of an entry comes before everything else at its address. -/
theorem listingFrom_entry {code : List Instruction} (filled : code ≠ [])
    (later : ∀ entry ∈ entries, offset < entry.offset) :
    listingFrom offset written (⟨name, offset⟩ :: entries) (unitsOf code) =
      ((if written then "\n" else "") ++ header ⟨name, offset⟩) ::
        listingFrom offset true entries (unitsOf code) := by
  cases code with
  | nil =>
      exact absurd rfl filled
  | cons instruction rest =>
      rw [listingFrom_cons, listingFrom_cons, headersAt_first later,
        headersAt_behind later]
      rfl

/-- Between two entries there are only lines. -/
theorem shows_lines (code more : List Instruction) {plain : String}
    (later : ∀ entry ∈ entries,
      base + (Extent.ofCode code).bytes ≤ entry.offset)
    (rest : Shows (String.join (listingFrom
      (base + (Extent.ofCode code).bytes) true entries (unitsOf more)))
      plain) :
    Shows (String.join (listingFrom base true entries
        (unitsOf (code ++ more))))
      (String.join (lineTexts base code) ++ plain) := by
  induction code generalizing base with
  | nil =>
      exact rest
  | cons instruction others inductionHypothesis =>
      have length : base + (Extent.ofCode (instruction :: others)).bytes =
          base + (Extent.ofInstruction instruction).bytes +
            (Extent.ofCode others).bytes := by
        rw [Extent.ofCode, Extent.add, Nat.add_assoc]
      have inside : ∀ entry ∈ entries, base < entry.offset := by
        intro entry member
        have behind := later entry member
        have filled : 0 < (Extent.ofInstruction instruction).bytes :=
          Nat.add_pos_left Nat.one_pos _
        omega
      rw [length] at later rest
      rw [List.cons_append, listingFrom_cons, headersAt_behind inside,
        List.nil_append, String.join_cons, lineTexts_cons, String.join_cons,
        String.append_assoc]
      exact (shows_line base instruction).append
        (inductionHypothesis later rest)

end

end Artifact

/-! ### Linked programs -/

section

variable {outside : List String} {base : Nat} {functions : List Function}
  {codes : List (List Instruction)} {entries : List FunctionEntry}

open Artifact

theorem Function.Placed.ne_nil {function : Function}
    {code : List Instruction} (placed : function.Placed outside base code) :
    code ≠ [] := by
  rintro rfl
  exact Nat.lt_irrefl 0 placed.bytes_pos

/-- A header and the lines of its function are shown before the rest of the
program. -/
theorem Function.Placed.shows_stretch {function : Function}
    {code : List Instruction} {plain : String} (written : Bool)
    (placed : function.Placed outside base code)
    (linked : Linked outside (base + (Extent.ofCode code).bytes) functions
      codes entries)
    (clean : '\x1b' ∉ function.name.toList)
    (rest : Shows (String.join (listingFrom
      (base + (Extent.ofCode code).bytes) true entries
      (unitsOf codes.flatten))) plain) :
    Shows (String.join (listingFrom base written
        (⟨function.name, base⟩ :: entries) (unitsOf (code :: codes).flatten)))
      ((if written then "\n" else "") ++
        Stretch.text ⟨⟨function.name, base⟩, code⟩ ++ plain) := by
  have later := linked.le_offset
  have behind : ∀ other ∈ entries, base < other.offset := by
    intro other member
    have apart := later other member
    have filled := placed.bytes_pos
    omega
  have filled : (code :: codes).flatten ≠ [] := by
    rw [List.flatten_cons]
    exact List.append_ne_nil_of_left_ne_nil placed.ne_nil _
  have line : Shows (if written then "\n" else "")
      (if written then "\n" else "") := by
    cases written <;> exact .of_clean (by decide)
  have titled : Shows (header ⟨function.name, base⟩)
      (headerText ⟨function.name, base⟩) := shows_header clean
  have lines := shows_lines code codes.flatten later rest
  have whole := (line.append titled).append lines
  rw [listingFrom_entry filled behind, String.join_cons, List.flatten_cons,
    Stretch.text]
  simp only [String.append_assoc] at whole ⊢
  exact whole

/-- Behind some other text, every function is shown behind a blank line. -/
theorem Linked.shows_written
    (linked : Linked outside base functions codes entries)
    (clean : ∀ function ∈ functions, '\x1b' ∉ function.name.toList) :
    Shows (String.join (listingFrom base true entries
        (unitsOf codes.flatten)))
      (String.join ((List.zipWith Stretch.mk entries codes).map fun stretch =>
        "\n" ++ stretch.text)) := by
  induction linked with
  | nil =>
      rw [List.flatten_nil, listingFrom_nil]
      exact .empty
  | cons placed rest inductionHypothesis =>
      have shown := inductionHypothesis fun function member =>
        clean function (List.mem_cons_of_mem _ member)
      have first := placed.shows_stretch true rest
        (clean _ List.mem_cons_self) shown
      rw [List.zipWith_cons_cons, List.map_cons, String.join_cons]
      exact first

theorem intercalate_cons (separator first : String) (rest : List String) :
    separator.intercalate (first :: rest) =
      first ++ String.join (rest.map fun next => separator ++ next) := by
  induction rest generalizing first with
  | nil => simp
  | cons next others inductionHypothesis =>
      rw [String.intercalate_cons_cons, inductionHypothesis, List.map_cons,
        String.join_cons, String.append_assoc, String.append_assoc]

/-- Functions are shown with blank lines between them. -/
theorem Linked.shows_listing
    (linked : Linked outside base functions codes entries)
    (clean : ∀ function ∈ functions, '\x1b' ∉ function.name.toList) :
    Shows (String.join (listingFrom base false entries
        (unitsOf codes.flatten)))
      ("\n".intercalate
        ((List.zipWith Stretch.mk entries codes).map Stretch.text)) := by
  cases linked with
  | nil =>
      rw [List.flatten_nil, listingFrom_nil]
      exact .empty
  | cons placed rest =>
      have shown := rest.shows_written fun function member =>
        clean function (List.mem_cons_of_mem _ member)
      have first := placed.shows_stretch false rest
        (clean _ List.mem_cons_self) shown
      rw [List.zipWith_cons_cons, List.map_cons, intercalate_cons,
        List.map_map]
      exact first

private theorem Linked.map_entry
    (linked : Linked outside base functions codes entries) :
    (List.zipWith Stretch.mk entries codes).map Stretch.entry = entries := by
  induction linked with
  | nil => rfl
  | cons placed rest inductionHypothesis =>
      rw [List.zipWith_cons_cons, List.map_cons, inductionHypothesis]

private theorem Linked.flatMap_code
    (linked : Linked outside base functions codes entries) :
    (List.zipWith Stretch.mk entries codes).flatMap Stretch.code =
      codes.flatten := by
  induction linked with
  | nil => rfl
  | cons placed rest inductionHypothesis =>
      rw [List.zipWith_cons_cons, List.flatMap_cons, inductionHypothesis,
        List.flatten_cons]

private theorem Linked.stretches_placed
    (linked : Linked outside base functions codes entries) :
    List.Forall₂ (fun function stretch =>
        stretch.entry.name = function.name ∧
        function.Placed outside stretch.entry.offset stretch.code)
      functions (List.zipWith Stretch.mk entries codes) := by
  induction linked with
  | nil => exact .nil
  | cons placed rest inductionHypothesis =>
      exact .cons ⟨rfl, placed⟩ inductionHypothesis

/-- The lines of all functions are those of the whole program. -/
theorem Linked.flatMap_lineTexts
    (linked : Linked outside base functions codes entries) :
    (List.zipWith Stretch.mk entries codes).flatMap (fun stretch =>
        lineTexts stretch.entry.offset stretch.code) =
      lineTexts base codes.flatten := by
  induction linked with
  | nil => rfl
  | cons placed rest inductionHypothesis =>
      rw [List.zipWith_cons_cons, List.flatMap_cons, inductionHypothesis,
        List.flatten_cons, lineTexts_append]

end

/-! ### The two views -/

/-- Both views of a program of some functions show the same stretches. -/
structure Artifact.ViewsAgree (artifact : Artifact) (functions : List Function)
    (stretches : List Artifact.Stretch) : Prop where
  -- Each function has a stretch of its own, in the order of declaration.
  placed : List.Forall₂ (fun function stretch =>
      stretch.entry.name = function.name ∧
      function.Placed (functions.map Function.name) stretch.entry.offset
        stretch.code) functions stretches
  entries : stretches.map Artifact.Stretch.entry = artifact.functions
  -- The bytes are those of the code of the stretches.
  decoded : ∃ bytes,
    readHexBytes (artifact.display .hexadecimal).toList = some bytes ∧
    Assembly.disassemble bytes =
      .ok (.ofInstructions (stretches.flatMap Artifact.Stretch.code))
  -- Without its colours, the listing has the header and the lines of each
  -- stretch, and a blank line between two of them.
  listed : unstyled (artifact.display .assembly) =
    "\n".intercalate (stretches.map Artifact.Stretch.text)
  -- The lines are those of the whole code, from the address zero on.
  lines : stretches.flatMap (fun stretch =>
      Artifact.lineTexts stretch.entry.offset stretch.code) =
    Artifact.lineTexts 0 (stretches.flatMap Artifact.Stretch.code)
  -- An address that is printed can be read back, and so can an operand.
  addresses : ∀ address,
    readHexadecimal 0 (hexadecimal 4 address).toList = some address
  operands : ∀ word : Word, ∃ bytes,
    readHexBytes word.render.toList = some bytes ∧
      Word.ofSlice bytes = .ok word

section

variable [IdentifierCharacters]

/-- The listing and the bytes of a compiled contract show the same program. -/
theorem Contract.compiled_viewsAgree {source : String} {contract : Contract}
    {parallel : Bool} {artifact : Artifact}
    (parsed : Contract.parse source = .ok contract)
    (compiled : contract.compile parallel = .ok artifact) :
    ∃ stretches, artifact.ViewsAgree contract.functions stretches := by
  obtain ⟨declarable, codes, linked, whole⟩ := linked_of_compiled compiled
  have clean : ∀ function ∈ contract.functions,
      '\x1b' ∉ function.name.toList := fun function member =>
    clean_of_identifies (identifies_of_parse parsed function member)
  refine ⟨List.zipWith .mk artifact.functions codes, ?_⟩
  constructor
  · exact linked.stretches_placed
  · exact linked.map_entry
  · refine ⟨artifact.code.bytes, readHexBytes_hexBytes _, ?_⟩
    rw [linked.flatMap_code, Assembly.disassemble_eq_ok]
    exact ⟨⟨codes.flatten, rfl⟩, by rw [whole]; rfl⟩
  · have shown := linked.shows_listing clean
    rw [← shown.unstyled_eq, Artifact.display, Artifact.listing, whole]
  · rw [linked.flatMap_lineTexts, linked.flatMap_code]
  · exact readHexadecimal_hexadecimal 4
  · intro word
    exact ⟨word.bytes, readHexBytes_hexBytes _, Word.ofSlice_bytes word⟩

end

def paired : Contract :=
  ⟨[⟨"g", [], .void, []⟩,
    ⟨"f", [], .int, [.returns (some (.integer 1))]⟩]⟩

def pairedSource : String :=
  "contract\x7bfunc g()\x7b\x7dfunc f()int\x7breturn 1\x7d\x7d"

open IdentifierTables

theorem Contract.paired_viewsAgree :
    ∃ artifact stretches,
      Contract.parse pairedSource = .ok paired ∧
      paired.compile true = .ok artifact ∧
      artifact.ViewsAgree paired.functions stretches ∧
      artifact.functions = [⟨"g", 0⟩, ⟨"f", 2⟩] ∧
      artifact.display .hexadecimal = "32503221000000015050" := by
  have parsed : Contract.parse pairedSource = .ok paired := by
    decide +kernel
  have compiled : paired.compile true = .ok _ := rfl
  obtain ⟨stretches, agree⟩ := compiled_viewsAgree parsed compiled
  exact ⟨_, stretches, parsed, compiled, agree, rfl, by decide +kernel⟩

end ContractCompiler
