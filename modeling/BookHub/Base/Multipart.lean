import BookHub.Base.Lists

/-!
# Multipart bodies

Blocks of a header and a content, with a delimiter between them: a line break and the boundary behind
two dashes. A reader takes everything up to the next delimiter for the content, so a content that holds
one is cut there, and what follows it is read as something else.
-/

namespace BookHub.Multipart

def crlf : List UInt8 := [13, 10]

def dashes : List UInt8 := [45, 45]

def delimiter (boundary : List UInt8) : List UInt8 := crlf ++ dashes ++ boundary

/-! ### Writing -/

/-- A line of a header: it is not empty, and holds no carriage return. -/
structure HeaderLine where
  bytes : List UInt8
  nonempty : bytes ≠ []
  oneLine : 13 ∉ bytes

structure Block where
  header : List HeaderLine
  content : List UInt8

/-- An empty line ends the header. -/
def writeHeader (header : List HeaderLine) : List UInt8 :=
  header.flatMap (fun line => line.bytes ++ crlf) ++ crlf

def Block.bytes (block : Block) : List UInt8 := writeHeader block.header ++ block.content

def write (boundary : List UInt8) (blocks : List Block) : List UInt8 :=
  dashes ++ boundary ++ crlf ++
    List.intercalate (delimiter boundary ++ crlf) (blocks.map Block.bytes) ++
    delimiter boundary ++ dashes ++ crlf

/-! ### Reading -/

structure Section where
  header : List (List UInt8)
  content : List UInt8
  deriving DecidableEq

def Block.read (block : Block) : Section := ⟨block.header.map HeaderLine.bytes, block.content⟩

/-- The lines up to an empty one, and what follows it. -/
def readHeader : Nat → List UInt8 → Option (List (List UInt8) × List UInt8)
  | 0, _ => none
  | fuel + 1, bytes =>
      match breakOn? crlf bytes with
      | none => none
      | some ([], rest) => some ([], rest)
      | some (line, rest) =>
          (readHeader fuel rest).map fun (header, content) => (line :: header, content)

/-- What follows a boundary: two dashes at the end, and otherwise a section up to the next one. -/
def readSections (boundary : List UInt8) : Nat → List UInt8 → Option (List Section)
  | 0, _ => none
  | fuel + 1, bytes =>
      if dashes.isPrefixOf bytes then some []
      else do
        let bytes ← bytes.dropPrefix? crlf
        let (header, bytes) ← readHeader bytes.length bytes
        let (content, bytes) ← breakOn? (delimiter boundary) bytes
        (readSections boundary fuel bytes).map (⟨header, content⟩ :: ·)

/-- What precedes the first boundary is skipped. -/
def read (boundary bytes : List UInt8) : Option (List Section) := do
  let (_, bytes) ← breakOn? (dashes ++ boundary) bytes
  readSections boundary bytes.length bytes

/-! ### What was written is read -/

/-- What follows a boundary, block by block. -/
def tail (boundary : List UInt8) : List Block → List UInt8
  | [] => dashes ++ crlf
  | block :: blocks => crlf ++ block.bytes ++ delimiter boundary ++ tail boundary blocks

theorem write_eq_tail (boundary : List UInt8) {blocks : List Block} (h : blocks ≠ []) :
    write boundary blocks = dashes ++ boundary ++ tail boundary blocks := by
  have htail : ∀ {blocks : List Block}, blocks ≠ [] → tail boundary blocks =
      crlf ++ List.intercalate (delimiter boundary ++ crlf) (blocks.map Block.bytes) ++
        delimiter boundary ++ dashes ++ crlf := by
    intro blocks hne
    induction blocks with
    | nil => exact absurd rfl hne
    | cons block rest ih =>
        cases rest with
        | nil => simp [tail]
        | cons second others =>
            rw [tail, ih (List.cons_ne_nil _ _), List.map_cons, List.map_cons,
              List.map_cons, List.intercalate_cons_cons]
            simp only [List.append_assoc]
  rw [htail h, write]
  simp only [List.append_assoc]

theorem breakOn?_crlf {line : List UInt8} (hline : 13 ∉ line) (rest : List UInt8) :
    breakOn? crlf (line ++ (crlf ++ rest)) = some (line, rest) := by
  apply breakOn?_append
  · decide
  · intro hmem
    exact hline (hmem.subset List.mem_cons_self)

theorem readHeader_writeHeader {header : List HeaderLine} {fuel : Nat} (hfuel : header.length < fuel)
    (rest : List UInt8) :
    readHeader fuel (writeHeader header ++ rest) = some (header.map HeaderLine.bytes, rest) := by
  induction header generalizing fuel with
  | nil =>
      obtain ⟨fuel, rfl⟩ := Nat.exists_eq_add_one_of_ne_zero (Nat.ne_of_gt hfuel)
      have hbreak := breakOn?_crlf List.not_mem_nil rest
      rw [List.nil_append] at hbreak
      show readHeader (fuel + 1) (crlf ++ rest) = _
      rw [readHeader, hbreak]
      rfl
  | cons line header ih =>
      obtain ⟨fuel, rfl⟩ := Nat.exists_eq_add_one_of_ne_zero (Nat.ne_of_gt (Nat.zero_lt_of_lt hfuel))
      have hbreak := breakOn?_crlf line.oneLine (writeHeader header ++ rest)
      have hwritten : writeHeader (line :: header) ++ rest =
          line.bytes ++ (crlf ++ (writeHeader header ++ rest)) := by
        simp only [writeHeader, List.flatMap_cons, List.append_assoc]
      have hheader := ih (Nat.lt_of_succ_lt_succ hfuel)
      rw [hwritten, readHeader, hbreak]
      cases hbytes : line.bytes with
      | nil => exact absurd hbytes line.nonempty
      | cons b bytes =>
          dsimp only
          rw [hheader, List.map_cons, hbytes]
          rfl

theorem length_lt_writeHeader (header : List HeaderLine) (rest : List UInt8) :
    header.length < (writeHeader header ++ rest).length := by
  have hlines : header.length ≤ (header.flatMap fun line => line.bytes ++ crlf).length := by
    induction header with
    | nil => exact Nat.zero_le _
    | cons line header ih =>
        have hcrlf : crlf.length = 2 := rfl
        rw [List.flatMap_cons, List.length_append, List.length_append, List.length_cons]
        omega
  have hcrlf : crlf.length = 2 := rfl
  rw [writeHeader, List.length_append, List.length_append]
  omega

/-- A section is read up to the first delimiter behind its header. -/
theorem readSections_header (boundary : List UInt8) (fuel : Nat) (header : List HeaderLine)
    (rest : List UInt8) :
    readSections boundary (fuel + 1) (crlf ++ (writeHeader header ++ rest)) =
      (breakOn? (delimiter boundary) rest).bind fun (content, bytes) =>
        (readSections boundary fuel bytes).map (⟨header.map HeaderLine.bytes, content⟩ :: ·) := by
  have hcrlf : ∀ bytes : List UInt8, (crlf ++ bytes).dropPrefix? crlf = some bytes := by
    intro bytes
    exact List.dropPrefix?_eq_some_iff.mpr ⟨crlf, rfl, beq_self_eq_true _⟩
  have hdashes : ∀ bytes : List UInt8, dashes.isPrefixOf (crlf ++ bytes) = false := fun _ => rfl
  rw [readSections, hdashes, hcrlf]
  simp only [Bool.false_eq_true, if_false, Option.bind_eq_bind, Option.bind_some,
    readHeader_writeHeader (length_lt_writeHeader _ _)]

theorem tail_cons (boundary : List UInt8) (block : Block) (blocks : List Block) :
    tail boundary (block :: blocks) = crlf ++ (writeHeader block.header ++
      (block.content ++ (delimiter boundary ++ tail boundary blocks))) := by
  simp only [tail, Block.bytes, List.append_assoc]

/-- A delimiter holds one carriage return, so none begins within another. -/
theorem return_not_mem {boundary : List UInt8} (h : 13 ∉ boundary) : 13 ∉ 10 :: dashes ++ boundary := by
  intro hmem
  obtain hmem | hmem := List.mem_append.mp hmem
  · exact absurd hmem (by decide)
  · exact h hmem

theorem breakOn?_delimiter {boundary content : List UInt8} (hboundary : 13 ∉ boundary)
    (h : ¬ delimiter boundary <:+: content) (rest : List UInt8) :
    breakOn? (delimiter boundary) (content ++ (delimiter boundary ++ rest)) = some (content, rest) :=
  breakOn?_append (return_not_mem hboundary) h

/-- Blocks whose contents hold no delimiter are read as they were written. -/
theorem readSections_clean {boundary : List UInt8} (hboundary : 13 ∉ boundary) {blocks : List Block}
    (hclean : ∀ block ∈ blocks, ¬ delimiter boundary <:+: block.content) {fuel : Nat}
    (hfuel : blocks.length < fuel) :
    readSections boundary fuel (tail boundary blocks) = some (blocks.map Block.read) := by
  induction blocks generalizing fuel with
  | nil =>
      obtain ⟨fuel, rfl⟩ := Nat.exists_eq_add_one_of_ne_zero (Nat.ne_of_gt hfuel)
      rfl
  | cons block blocks ih =>
      obtain ⟨fuel, rfl⟩ := Nat.exists_eq_add_one_of_ne_zero (Nat.ne_of_gt (Nat.zero_lt_of_lt hfuel))
      have hbreak := breakOn?_delimiter hboundary (hclean block List.mem_cons_self)
        (tail boundary blocks)
      have hblocks := ih (fun b hb => hclean b (List.mem_cons_of_mem _ hb))
        (Nat.lt_of_succ_lt_succ hfuel)
      rw [tail_cons, readSections_header]
      rw [hbreak, Option.bind_some]
      dsimp only
      rw [hblocks]
      rfl

/-- Behind blocks whose contents hold no delimiter, the next one is read with its header, and with its
content or with what precedes a delimiter in it. -/
theorem readSections_shape {boundary : List UInt8} (hboundary : 13 ∉ boundary) {clean rest : List Block}
    {block : Block} (hclean : ∀ block ∈ clean, ¬ delimiter boundary <:+: block.content) {fuel : Nat}
    {sections : List Section}
    (h : readSections boundary fuel (tail boundary (clean ++ block :: rest)) = some sections) :
    ∃ content others, sections = clean.map Block.read ++
        ⟨block.header.map HeaderLine.bytes, content⟩ :: others ∧
      (content = block.content ∧ ¬ delimiter boundary <:+: block.content ∨
        ∃ cut, block.content = content ++ delimiter boundary ++ cut) := by
  induction clean generalizing fuel sections with
  | nil =>
      cases fuel with
      | zero => cases h
      | succ fuel =>
          rw [List.nil_append, tail_cons, readSections_header] at h
          obtain ⟨⟨content, bytes⟩, hbreak, h⟩ := Option.bind_eq_some_iff.mp h
          obtain ⟨others, -, rfl⟩ := Option.map_eq_some_iff.mp h
          refine ⟨content, others, rfl, ?_⟩
          obtain ⟨hwhole, hfound⟩ | ⟨before, after, hcontent, hfound⟩ :=
            breakOn?_cases (return_not_mem hboundary) block.content (tail boundary rest)
          · cases hbreak.symm.trans hfound
            exact .inl ⟨rfl, hwhole⟩
          · cases hbreak.symm.trans hfound
            exact .inr ⟨after, hcontent⟩
  | cons first clean ih =>
      cases fuel with
      | zero => cases h
      | succ fuel =>
          rw [List.cons_append, tail_cons, readSections_header] at h
          have hbreak := breakOn?_delimiter hboundary (hclean first List.mem_cons_self)
            (tail boundary (clean ++ block :: rest))
          obtain ⟨⟨content, bytes⟩, hbreak', h⟩ := Option.bind_eq_some_iff.mp h
          cases hbreak'.symm.trans hbreak
          obtain ⟨sections, hsections, rfl⟩ := Option.map_eq_some_iff.mp h
          obtain ⟨content, others, rfl, hcontent⟩ :=
            ih (fun b hb => hclean b (List.mem_cons_of_mem _ hb)) hsections
          exact ⟨content, others, rfl, hcontent⟩

theorem read_boundary (boundary rest : List UInt8) :
    read boundary (dashes ++ boundary ++ rest) = readSections boundary rest.length rest := by
  rw [read, breakOn?_of_prefix]
  rfl

theorem length_lt_tail (boundary : List UInt8) (blocks : List Block) :
    blocks.length < (tail boundary blocks).length := by
  have hcrlf : crlf.length = 2 := rfl
  induction blocks with
  | nil =>
      rw [tail, List.length_append]
      exact Nat.zero_lt_succ _
  | cons block blocks ih =>
      rw [tail, List.length_append, List.length_append, List.length_append, List.length_cons]
      omega

/-- At least one block, and no delimiter within a content. -/
theorem read_write {boundary : List UInt8} (hboundary : 13 ∉ boundary) {blocks : List Block}
    (hne : blocks ≠ []) (hclean : ∀ block ∈ blocks, ¬ delimiter boundary <:+: block.content) :
    read boundary (write boundary blocks) = some (blocks.map Block.read) := by
  rw [write_eq_tail boundary hne, read_boundary]
  exact readSections_clean hboundary hclean (length_lt_tail boundary blocks)

theorem read_write_shape {boundary : List UInt8} (hboundary : 13 ∉ boundary) {clean rest : List Block}
    {block : Block} (hclean : ∀ block ∈ clean, ¬ delimiter boundary <:+: block.content)
    {sections : List Section}
    (h : read boundary (write boundary (clean ++ block :: rest)) = some sections) :
    ∃ content others, sections = clean.map Block.read ++
        ⟨block.header.map HeaderLine.bytes, content⟩ :: others ∧
      (content = block.content ∧ ¬ delimiter boundary <:+: block.content ∨
        ∃ cut, block.content = content ++ delimiter boundary ++ cut) := by
  have hblocks := List.append_ne_nil_of_right_ne_nil clean (List.cons_ne_nil block rest)
  rw [write_eq_tail boundary hblocks, read_boundary] at h
  exact readSections_shape hboundary hclean h

/-- Without a block there is an empty header, and no delimiter behind it. -/
theorem read_write_nil {boundary : List UInt8} (hboundary : 13 ∉ boundary) :
    read boundary (write boundary []) = none := by
  have hstem : (13 : UInt8) ∉ dashes ++ boundary ++ dashes := by
    intro hmem
    rw [List.mem_append, List.mem_append] at hmem
    obtain (hmem | hmem) | hmem := hmem
    · exact absurd hmem (by decide)
    · exact hboundary hmem
    · exact absurd hmem (by decide)
  have hnone : breakOn? (delimiter boundary) (dashes ++ boundary ++ dashes ++ crlf) = none := by
    rw [Option.eq_none_iff_forall_ne_some]
    intro ⟨before, after⟩ hbreak
    have hsplit := eq_of_breakOn? hbreak
    have hlength := congrArg List.length hsplit
    have hget : (dashes ++ boundary ++ dashes ++ crlf)[before.length]? = some 13 := by
      rw [hsplit, List.append_assoc, List.getElem?_append_right (Nat.le_refl _), Nat.sub_self]
      rfl
    have hlate : ¬ before.length < (dashes ++ boundary ++ dashes).length := by
      intro hearly
      rw [List.getElem?_append_left hearly] at hget
      exact hstem (List.mem_of_getElem? hget)
    simp only [delimiter, crlf, dashes, List.length_append, List.length_cons, List.length_nil]
      at hlength hlate
    omega
  have hwritten : write boundary [] =
      dashes ++ boundary ++ (crlf ++ (writeHeader [] ++ (dashes ++ boundary ++ dashes ++ crlf))) := by
    simp [write, writeHeader, delimiter]
  rw [hwritten, read_boundary]
  show readSections boundary (_ + 1) _ = none
  rw [readSections_header, hnone]
  rfl

end BookHub.Multipart
