import BookHub.ApiGateway.Boundaries

/-!
# Forms that are forwarded

A form is taken apart into its fields and its files, and each becomes a part of a new body. The values
of a field are joined into one text by then. The receiver puts the parts together again: those with a
file name are files, and the others of one name are the values of a field.
-/

namespace BookHub.ApiGateway

/-! ### The parts of a form -/

def fieldPart (field : List Char × List (List Char)) : Part :=
  ⟨field.1, none, .text (List.intercalate [','] field.2)⟩

def filePart (file : FormFile) : Part :=
  ⟨file.name, some file.fileName, .stream (file.contentType.getD []) file.bytes⟩

theorem addField_eq {field : List Char × List (List Char)} {part : Part}
    (h : addField field = .ok part) :
    part = fieldPart field := by
  unfold addField at h
  simp only [guard_eq_ok_iff, bind_eq_ok_iff] at h
  obtain ⟨-, -, -, -, -, h⟩ := h
  cases h
  rfl

theorem addFile_eq {file : FormFile} {part : Part} (h : addFile file = .ok part) :
    part = filePart file := by
  unfold addFile at h
  simp only [bind_eq_ok_iff] at h
  obtain ⟨-, -, -, -, -, -, -, -, -, -, h⟩ := h
  cases h
  rfl

/-- The parts of a form that was taken apart, and what was checked of it. -/
theorem parts_of_buildContent {framework : Framework} {request : HttpRequest} {boundary : List Char}
    {parts : List Part} {form : Form} (hform : framework.readForm request = .ok form)
    (h : buildContent framework request = .ok (.multipart boundary parts)) :
    parts = form.fields.map fieldPart ++ form.files.map filePart ∧ isBoundary boundary = true ∧
      ∀ file ∈ form.files, FileFits file := by
  cases hbranch : multipartContentType request with
  | none => cases ((buildContent_string_iff hbranch).mp h).2
  | some text =>
      obtain ⟨_, rest, fields, files, hread, -, hvalid, hfields, hfiles, hcontent⟩ :=
        (buildContent_multipart_iff hbranch).mp h
      cases hform.symm.trans hread
      cases hcontent
      refine ⟨?_, hvalid, ?_⟩
      · rw [mapM_eq_map (fun _ _ => addField_eq) hfields, mapM_eq_map (fun _ _ => addFile_eq) hfiles]
      · intro file hfile
        exact addFile_ok_iff.mp (mapM_ok_iff.mp ⟨files, hfiles⟩ file hfile)

theorem return_not_mem_boundary {boundary : List Char} (h : isBoundary boundary = true) :
    13 ∉ Utf8.encode boundary := by
  intro hmem
  have hreturn : '\r' ∈ boundary := Utf8.mem_of_ascii_mem_encode (by decide) hmem
  have hall := List.all_eq_true.mp (Bool.and_eq_true_iff.mp h).2 '\r' hreturn
  exact absurd hall (by decide)

/-! ### The receiver -/

/-- How the header of a part is written and how the receiver reads it. -/
structure HeaderCodec where
  write : PartHeader → List Multipart.HeaderLine
  read : List (List UInt8) → Option PartHeader

/-- The fields by their names, in the order in which each is first met. -/
def group : List (List Char × List Char) → List (List Char × List (List Char))
  | [] => []
  | (name, value) :: rest =>
      (name, value :: ((group rest).lookup name).getD []) ::
        (group rest).filter fun field => field.1 != name

namespace HeaderCodec

variable (codec : HeaderCodec)

def readPart (part : Multipart.Section) : Option ((List Char × List Char) ⊕ FormFile) :=
  (codec.read part.header).map fun header =>
    match header.fileName with
    | none => .inl (header.name, Utf8.decode part.content)
    | some fileName => .inr ⟨header.name, fileName, some header.contentType, part.content⟩

def receive (boundary bytes : List UInt8) : Option Form := do
  let sections ← Multipart.read boundary bytes
  let parts ← sections.mapM codec.readPart
  return ⟨group (parts.filterMap Sum.getLeft?), parts.filterMap Sum.getRight?⟩

/-- What the receiver reads of the header that is written for a part. -/
def readBack (part : Part) : Option PartHeader :=
  codec.read ((codec.write part.header).map Multipart.HeaderLine.bytes)

/-- A file is read as a file and a field as a field, where they are read. -/
def TellsKind (part : Part) : Prop :=
  ∀ header, codec.readBack part = some header → header.fileName.isSome = part.header.fileName.isSome

/-- One value without a delimiter in it, and a name that is read back. -/
def FieldSurvives (boundary : List UInt8) (field : List Char × List (List Char)) : Prop :=
  ∃ value header, field.2 = [value] ∧ ¬ Multipart.delimiter boundary <:+: Utf8.encode value ∧
    codec.readBack (fieldPart field) = some header ∧ header.name = field.1

def FileSurvives (boundary : List UInt8) (file : FormFile) : Prop :=
  ¬ Multipart.delimiter boundary <:+: file.bytes ∧
    codec.readBack (filePart file) = some (filePart file).header

def Survives (boundary : List UInt8) (form : Form) : Prop :=
  (form.fields ≠ [] ∨ form.files ≠ []) ∧
    (∀ field ∈ form.fields, codec.FieldSurvives boundary field) ∧
    ∀ file ∈ form.files, codec.FileSurvives boundary file

end HeaderCodec

/-! ### Grouping -/

theorem group_values_ne_nil {parts : List (List Char × List Char)} :
    ∀ field ∈ group parts, field.2 ≠ [] := by
  induction parts with
  | nil =>
      intro field hfield
      cases hfield
  | cons part rest ih =>
      intro field hfield
      obtain rfl | hfield := List.mem_cons.mp hfield
      · exact List.cons_ne_nil _ _
      · exact ih field (List.mem_of_mem_filter hfield)

theorem mem_of_lookup {fields : List (List Char × List (List Char))} {name : List Char}
    {values : List (List Char)} (h : fields.lookup name = some values) : (name, values) ∈ fields := by
  obtain ⟨before, after, rfl, -⟩ := List.lookup_eq_some_iff.mp h
  exact List.mem_append_right _ List.mem_cons_self

theorem filter_of_lookup_none {fields : List (List Char × List (List Char))} {name : List Char}
    (h : fields.lookup name = none) : (fields.filter fun field => field.1 != name) = fields := by
  rw [List.filter_eq_self]
  intro field hfield
  have hno := List.lookup_eq_none_iff.mp h field hfield
  rw [bne_iff_ne] at hno ⊢
  exact hno.symm

/-- A field with one value has taken nothing from the others. -/
theorem group_of_single {name value : List Char} {rest : List (List Char × List Char)}
    {fields : List (List Char × List (List Char))}
    (h : group ((name, value) :: rest) = (name, [value]) :: fields) : group rest = fields := by
  rw [group] at h
  obtain ⟨hvalues, hfields⟩ := List.cons.inj h
  have hmore : ((group rest).lookup name).getD [] = [] := (List.cons.inj (Prod.mk.inj hvalues).2).2
  cases hlookup : (group rest).lookup name with
  | none =>
      rw [filter_of_lookup_none hlookup] at hfields
      exact hfields
  | some values =>
      rw [hlookup] at hmore
      exact absurd hmore (group_values_ne_nil _ (mem_of_lookup hlookup))

theorem group_of_distinct {parts : List (List Char × List Char)} (h : (parts.map Prod.fst).Nodup) :
    group parts = parts.map fun part => (part.1, [part.2]) := by
  induction parts with
  | nil => rfl
  | cons part rest ih =>
      obtain ⟨hnot, hrest⟩ := List.nodup_cons.mp h
      have hlookup : (group rest).lookup part.1 = none := by
        rw [List.lookup_eq_none_iff, ih hrest]
        intro field hfield
        obtain ⟨other, hother, rfl⟩ := List.mem_map.mp hfield
        rw [bne_iff_ne]
        intro heq
        exact hnot (heq ▸ List.mem_map_of_mem hother)
      rw [group, hlookup, filter_of_lookup_none hlookup, ih hrest]
      rfl

/-- Behind fields with one value each, a part is the first value of the next field. -/
theorem group_shape {singles others : List (List Char × List Char)} {part : List Char × List Char}
    {field : List Char × List (List Char)} {fields : List (List Char × List (List Char))}
    (h : group (singles ++ part :: others) =
      singles.map (fun single => (single.1, [single.2])) ++ field :: fields) :
    field.1 = part.1 ∧ ∃ more, field.2 = part.2 :: more := by
  induction singles with
  | nil =>
      obtain ⟨hfield, -⟩ := List.cons.inj h
      rw [← hfield]
      exact ⟨rfl, _, rfl⟩
  | cons single singles ih => exact ih (group_of_single h)

/-! ### What is received -/

namespace HeaderCodec

variable {codec : HeaderCodec}

/-- A part as it is written. -/
def block (codec : HeaderCodec) (part : Part) : Multipart.Block := ⟨codec.write part.header, part.bytes⟩

/-- A part as it is read where nothing goes wrong. -/
def sent (codec : HeaderCodec) (part : Part) : Multipart.Section := (codec.block part).read

theorem readPart_field {boundary : List UInt8} {field : List Char × List (List Char)}
    (hkind : codec.TellsKind (fieldPart field)) (h : codec.FieldSurvives boundary field) :
    codec.readPart (codec.sent (fieldPart field)) =
      some (.inl (field.1, List.intercalate [','] field.2)) := by
  obtain ⟨_, header, _, _, hread, hname⟩ := h
  have hfield : header.fileName.isSome = false := hkind header hread
  have hfile : header.fileName = none := by
    rw [← Option.not_isSome_iff_eq_none, hfield]
    decide
  unfold readPart
  show (codec.readBack (fieldPart field)).map _ = _
  rw [hread, Option.map_some, hfile, hname]
  show some (Sum.inl (field.1, Utf8.decode (Utf8.encode _))) = _
  rw [Utf8.decode_encode]

theorem readPart_file {boundary : List UInt8} {file : FormFile} (htype : FileFits file)
    (h : codec.FileSurvives boundary file) :
    codec.readPart (codec.sent (filePart file)) = some (.inr file) := by
  obtain ⟨⟨contentType, heq, -⟩, -⟩ := htype
  unfold readPart
  show (codec.readBack (filePart file)).map _ = _
  rw [h.2]
  obtain ⟨name, fileName, _, bytes⟩ := file
  cases heq
  rfl

theorem readParts_fields {boundary : List UInt8} {fields : List (List Char × List (List Char))}
    (hkinds : ∀ field ∈ fields, codec.TellsKind (fieldPart field))
    (h : ∀ field ∈ fields, codec.FieldSurvives boundary field) (rest : List Multipart.Section) :
    (fields.map (codec.sent ∘ fieldPart) ++ rest).mapM codec.readPart =
      (rest.mapM codec.readPart).map
        (fields.map (fun field => .inl (field.1, List.intercalate [','] field.2)) ++ ·) :=
  mapM_map_append (fun field hfield => readPart_field (hkinds field hfield) (h field hfield)) rest

theorem readParts_files {boundary : List UInt8} {files : List FormFile}
    (htypes : ∀ file ∈ files, FileFits file) (h : ∀ file ∈ files, codec.FileSurvives boundary file)
    (rest : List Multipart.Section) :
    (files.map (codec.sent ∘ filePart) ++ rest).mapM codec.readPart =
      (rest.mapM codec.readPart).map (files.map Sum.inr ++ ·) :=
  mapM_map_append (fun file hfile => readPart_file (htypes file hfile) (h file hfile)) rest

theorem readPart_field_eq {field : List Char × List (List Char)} {content : List UInt8}
    {part : (List Char × List Char) ⊕ FormFile} (hkind : codec.TellsKind (fieldPart field))
    (h : codec.readPart ⟨(codec.sent (fieldPart field)).header, content⟩ = some part) :
    ∃ header, codec.readBack (fieldPart field) = some header ∧
      part = .inl (header.name, Utf8.decode content) := by
  obtain ⟨header, hread, hpart⟩ := Option.map_eq_some_iff.mp h
  refine ⟨header, hread, ?_⟩
  have hfield : header.fileName.isSome = false := hkind header hread
  rw [← hpart]
  cases hfile : header.fileName with
  | none => rfl
  | some fileName =>
      rw [hfile] at hfield
      cases hfield

theorem readPart_file_eq {file : FormFile} {content : List UInt8}
    {part : (List Char × List Char) ⊕ FormFile} (hkind : codec.TellsKind (filePart file))
    (h : codec.readPart ⟨(codec.sent (filePart file)).header, content⟩ = some part) :
    ∃ header fileName, codec.readBack (filePart file) = some header ∧ header.fileName = some fileName ∧
      part = .inr ⟨header.name, fileName, some header.contentType, content⟩ := by
  obtain ⟨header, hread, hpart⟩ := Option.map_eq_some_iff.mp h
  have hfile : header.fileName.isSome = true := hkind header hread
  obtain ⟨fileName, hfile⟩ := Option.isSome_iff_exists.mp hfile
  refine ⟨header, fileName, hread, hfile, ?_⟩
  rw [← hpart, hfile]

theorem clean_field {boundary : List UInt8} {field : List Char × List (List Char)}
    (h : codec.FieldSurvives boundary field) :
    ¬ Multipart.delimiter boundary <:+: (fieldPart field).bytes := by
  obtain ⟨value, _, hvalue, hclean, _⟩ := h
  show ¬ _ <:+: Utf8.encode (List.intercalate [','] field.2)
  rw [hvalue, List.intercalate_singleton]
  exact hclean

/-- The values of the fields are what the receiver reads where each field has one. -/
theorem singles_map {boundary : List UInt8} {fields : List (List Char × List (List Char))}
    (h : ∀ field ∈ fields, codec.FieldSurvives boundary field) :
    (fields.map fun field => (field.1, List.intercalate [','] field.2)).map
      (fun single => (single.1, [single.2])) = fields := by
  rw [List.map_map]
  have hsame : ∀ field ∈ fields, ((fun single : List Char × List Char => (single.1, [single.2])) ∘
      fun field : List Char × List (List Char) => (field.1, List.intercalate [','] field.2)) field =
        field := by
    intro field hfield
    obtain ⟨value, _, hvalue, _⟩ := h field hfield
    show (field.1, [List.intercalate [','] field.2]) = field
    rw [hvalue, List.intercalate_singleton, ← hvalue]
  rw [List.map_congr_left hsame, List.map_id']

/-- A value that is the beginning of the text that was read is the whole of it. -/
theorem single_of_first {boundary content : List UInt8} {value : List Char} {more : List (List Char)}
    (hvalue : value = Utf8.decode content)
    (hcontent : content = Utf8.encode (List.intercalate [','] (value :: more)) ∧
          ¬ Multipart.delimiter boundary <:+: Utf8.encode (List.intercalate [','] (value :: more)) ∨
        ∃ cut, Utf8.encode (List.intercalate [','] (value :: more)) =
          content ++ Multipart.delimiter boundary ++ cut) :
    more = [] ∧ ¬ Multipart.delimiter boundary <:+: Utf8.encode value := by
  obtain ⟨hwhole, hclean⟩ | ⟨cut, hcut⟩ := hcontent
  · rw [hwhole, Utf8.decode_encode] at hvalue
    cases more with
    | nil =>
        rw [List.intercalate_singleton] at hclean
        exact ⟨rfl, hclean⟩
    | cons second others =>
        rw [List.intercalate_cons_cons] at hvalue
        have hlength := congrArg List.length hvalue
        simp at hlength
  · -- behind the value stands a comma or nothing, and no line break
    have hdecode := Utf8.decode_append_ascii content (10 :: Multipart.dashes ++ boundary ++ cut)
      (b := 13) (by decide)
    rw [← hvalue] at hdecode
    have htext : List.intercalate [','] (value :: more) =
        value ++ '\r' :: Utf8.decode (10 :: Multipart.dashes ++ boundary ++ cut) := by
      rw [← Utf8.decode_encode (List.intercalate [','] (value :: more)), hcut, List.append_assoc]
      exact hdecode
    cases more with
    | nil =>
        rw [List.intercalate_singleton] at htext
        have hlength := congrArg List.length htext
        simp at hlength
    | cons second others =>
        rw [List.intercalate_cons_cons, List.append_assoc] at htext
        cases List.append_cancel_left htext

/-! ### A form that survives -/

variable {boundary : List UInt8} {form : Form}

/-- The blocks of a form. -/
def blocks (codec : HeaderCodec) (form : Form) : List Multipart.Block :=
  (form.fields.map fieldPart ++ form.files.map filePart).map codec.block

theorem map_blocks (codec : HeaderCodec) (form : Form) :
    (codec.blocks form).map Multipart.Block.read =
      form.fields.map (codec.sent ∘ fieldPart) ++ form.files.map (codec.sent ∘ filePart) := by
  simp only [blocks, List.map_append, List.map_map]
  rfl

theorem clean_parts {fields : List (List Char × List (List Char))} {files : List FormFile}
    (hfields : ∀ field ∈ fields, codec.FieldSurvives boundary field)
    (hfiles : ∀ file ∈ files, codec.FileSurvives boundary file) :
    ∀ part ∈ fields.map fieldPart ++ files.map filePart,
      ¬ Multipart.delimiter boundary <:+: part.bytes := by
  intro part hpart
  obtain hpart | hpart := List.mem_append.mp hpart
  · obtain ⟨field, hfield, rfl⟩ := List.mem_map.mp hpart
    exact clean_field (hfields field hfield)
  · obtain ⟨file, hfile, rfl⟩ := List.mem_map.mp hpart
    exact (hfiles file hfile).1

/-- Behind parts without a delimiter, the next one is received with its header. -/
theorem sections_shape (hboundary : 13 ∉ boundary) {before after : List Part} {part : Part}
    (hclean : ∀ part ∈ before, ¬ Multipart.delimiter boundary <:+: part.bytes)
    {sections : List Multipart.Section}
    (h : Multipart.read boundary (Multipart.write boundary ((before ++ part :: after).map codec.block)) =
      some sections) :
    ∃ content others, sections = before.map codec.sent ++
        ⟨(codec.sent part).header, content⟩ :: others ∧
      (content = part.bytes ∧ ¬ Multipart.delimiter boundary <:+: part.bytes ∨
        ∃ cut, part.bytes = content ++ Multipart.delimiter boundary ++ cut) := by
  rw [List.map_append, List.map_cons] at h
  have hblocks : ∀ block ∈ before.map codec.block,
      ¬ Multipart.delimiter boundary <:+: block.content := by
    intro block hblock
    obtain ⟨part, hpart, rfl⟩ := List.mem_map.mp hblock
    exact hclean part hpart
  obtain ⟨content, others, hsections, hcontent⟩ := Multipart.read_write_shape hboundary hblocks h
  rw [List.map_map] at hsections
  exact ⟨content, others, hsections, hcontent⟩

theorem receive_of_survives (hboundary : 13 ∉ boundary) (hnames : (form.fields.map Prod.fst).Nodup)
    (hkinds : ∀ field ∈ form.fields, codec.TellsKind (fieldPart field))
    (htypes : ∀ file ∈ form.files, FileFits file) (h : codec.Survives boundary form) :
    codec.receive boundary (Multipart.write boundary (codec.blocks form)) = some form := by
  obtain ⟨hne, hfields, hfiles⟩ := h
  have hblocks : codec.blocks form ≠ [] := by
    unfold blocks
    simp only [ne_eq, List.map_eq_nil_iff, List.append_eq_nil_iff]
    intro ⟨hnofield, hnofile⟩
    obtain hne | hne := hne
    · exact hne hnofield
    · exact hne hnofile
  have hclean : ∀ block ∈ codec.blocks form, ¬ Multipart.delimiter boundary <:+: block.content := by
    intro block hblock
    obtain ⟨part, hpart, rfl⟩ := List.mem_map.mp hblock
    exact clean_parts hfields hfiles part hpart
  have hsections := Multipart.read_write hboundary hblocks hclean
  have hparts : ((codec.blocks form).map Multipart.Block.read).mapM codec.readPart =
      some (form.fields.map (fun field => Sum.inl (field.1, List.intercalate [','] field.2)) ++
        form.files.map Sum.inr) := by
    have hread := readParts_files htypes hfiles []
    rw [List.append_nil] at hread
    rw [map_blocks, readParts_fields hkinds hfields, hread]
    simp
  have hgroup : group (form.fields.map fun field => (field.1, List.intercalate [','] field.2)) =
      form.fields := by
    rw [group_of_distinct, singles_map hfields]
    rw [List.map_map]
    exact hnames
  unfold receive
  rw [hsections, Option.bind_eq_bind, Option.bind_some, hparts, Option.bind_eq_bind, Option.bind_some]
  simp [hgroup, List.filterMap_map, Function.comp_def]

theorem field_survives (hboundary : 13 ∉ boundary) {before after : List (List Char × List (List Char))}
    {field : List Char × List (List Char)} {files : List Part}
    {sections : List Multipart.Section} {parts : List ((List Char × List Char) ⊕ FormFile)}
    (hkinds : ∀ other ∈ before, codec.TellsKind (fieldPart other))
    (hkind : codec.TellsKind (fieldPart field))
    (hbefore : ∀ field ∈ before, codec.FieldSurvives boundary field)
    (hsections : Multipart.read boundary (Multipart.write boundary
      ((before.map fieldPart ++ fieldPart field :: (after.map fieldPart ++ files)).map codec.block)) =
      some sections)
    (hparts : sections.mapM codec.readPart = some parts)
    (hgroup : group (parts.filterMap Sum.getLeft?) = before ++ field :: after) :
    codec.FieldSurvives boundary field := by
  have hclean : ∀ part ∈ before.map fieldPart, ¬ Multipart.delimiter boundary <:+: part.bytes := by
    intro part hpart
    obtain ⟨field, hfield, rfl⟩ := List.mem_map.mp hpart
    exact clean_field (hbefore field hfield)
  obtain ⟨content, others, rfl, hcontent⟩ := sections_shape hboundary hclean hsections
  rw [List.map_map, readParts_fields hkinds hbefore] at hparts
  obtain ⟨received, hreceived, rfl⟩ := Option.map_eq_some_iff.mp hparts
  obtain ⟨part, others, hpart, rfl⟩ := exists_of_mapM_cons hreceived
  obtain ⟨header, hheader, rfl⟩ := readPart_field_eq hkind hpart
  have hfirst : group (before.map (fun field => (field.1, List.intercalate [','] field.2)) ++
      (header.name, Utf8.decode content) :: others.filterMap Sum.getLeft?) =
      (before.map fun field => (field.1, List.intercalate [','] field.2)).map
        (fun single => (single.1, [single.2])) ++ field :: after := by
    rw [singles_map hbefore, ← hgroup]
    simp [List.filterMap_map, Function.comp_def]
  obtain ⟨hname, more, hvalues⟩ := group_shape hfirst
  have hbytes : (fieldPart field).bytes =
      Utf8.encode (List.intercalate [','] (Utf8.decode content :: more)) := by
    rw [← hvalues]
    rfl
  rw [hbytes] at hcontent
  obtain ⟨rfl, hclean⟩ := single_of_first rfl hcontent
  exact ⟨_, header, hvalues, hclean, hheader, hname.symm⟩

theorem file_survives (hboundary : 13 ∉ boundary) {fields : List (List Char × List (List Char))}
    {before after : List FormFile} {file : FormFile} {sections : List Multipart.Section}
    {parts : List ((List Char × List Char) ⊕ FormFile)}
    (hkinds : ∀ field ∈ fields, codec.TellsKind (fieldPart field))
    (hkind : codec.TellsKind (filePart file))
    (hfields : ∀ field ∈ fields, codec.FieldSurvives boundary field)
    (htypes : ∀ file ∈ before, FileFits file)
    (hbefore : ∀ file ∈ before, codec.FileSurvives boundary file)
    (hsections : Multipart.read boundary (Multipart.write boundary
      ((fields.map fieldPart ++ before.map filePart ++ filePart file :: after.map filePart).map
        codec.block)) = some sections)
    (hparts : sections.mapM codec.readPart = some parts)
    (hfiles : parts.filterMap Sum.getRight? = before ++ file :: after) :
    codec.FileSurvives boundary file := by
  obtain ⟨content, others, rfl, hcontent⟩ :=
    sections_shape hboundary (clean_parts hfields hbefore) hsections
  rw [List.map_append, List.map_map, List.map_map, List.append_assoc,
    readParts_fields hkinds hfields, readParts_files htypes hbefore] at hparts
  obtain ⟨withFiles, hwithFiles, rfl⟩ := Option.map_eq_some_iff.mp hparts
  obtain ⟨received, hreceived, rfl⟩ := Option.map_eq_some_iff.mp hwithFiles
  obtain ⟨part, others, hpart, rfl⟩ := exists_of_mapM_cons hreceived
  obtain ⟨header, fileName, hheader, hfileName, rfl⟩ := readPart_file_eq hkind hpart
  have hfirst : before ++ ⟨header.name, fileName, some header.contentType, content⟩ ::
      others.filterMap Sum.getRight? = before ++ file :: after := by
    rw [← hfiles]
    simp [List.filterMap_map, Function.comp_def]
  obtain ⟨rfl, -⟩ := List.cons.inj (List.append_cancel_left hfirst)
  obtain ⟨-, hclean⟩ | ⟨cut, hcut⟩ := hcontent
  · refine ⟨hclean, ?_⟩
    rw [hheader]
    obtain ⟨name, _, contentType⟩ := header
    cases hfileName
    rfl
  · -- the file that is received is shorter than the one that was sent
    have hlonger : content = content ++ (Multipart.delimiter boundary ++ cut) := by
      rw [← List.append_assoc]
      exact hcut
    cases List.self_eq_append_right.mp hlonger

theorem survives_of_receive (hboundary : 13 ∉ boundary)
    (hkinds : ∀ part ∈ form.fields.map fieldPart ++ form.files.map filePart, codec.TellsKind part)
    (htypes : ∀ file ∈ form.files, FileFits file)
    (h : codec.receive boundary (Multipart.write boundary (codec.blocks form)) = some form) :
    codec.Survives boundary form := by
  obtain ⟨sections, hsections, h⟩ := Option.bind_eq_some_iff.mp h
  obtain ⟨parts, hparts, h⟩ := Option.bind_eq_some_iff.mp h
  have hform : group (parts.filterMap Sum.getLeft?) = form.fields ∧
      parts.filterMap Sum.getRight? = form.files := by
    rw [← Option.some.inj h]
    exact ⟨rfl, rfl⟩
  have hfieldKinds : ∀ field ∈ form.fields, codec.TellsKind (fieldPart field) :=
    fun field hfield => hkinds _ (List.mem_append_left _ (List.mem_map_of_mem hfield))
  have hfields : ∀ field ∈ form.fields, codec.FieldSurvives boundary field := by
    apply forall_of_before
    intro before field after hsplit hbefore
    rw [hsplit, List.forall_mem_append, List.forall_mem_cons] at hfieldKinds
    have hmap : form.fields.map fieldPart =
        before.map fieldPart ++ fieldPart field :: after.map fieldPart := by
      rw [hsplit, List.map_append, List.map_cons]
    rw [blocks, hmap, List.append_assoc, List.cons_append] at hsections
    exact field_survives hboundary hfieldKinds.1 hfieldKinds.2.1 hbefore hsections hparts
      (hform.1.trans hsplit)
  have hfiles : ∀ file ∈ form.files, codec.FileSurvives boundary file := by
    apply forall_of_before
    intro before file after hsplit hbefore
    have hkind : codec.TellsKind (filePart file) := by
      apply hkinds
      apply List.mem_append_right
      rw [hsplit]
      exact List.mem_map_of_mem (List.mem_append_right _ List.mem_cons_self)
    have hfits : ∀ file ∈ before, FileFits file := by
      intro file hfile
      apply htypes
      rw [hsplit]
      exact List.mem_append_left _ hfile
    have hmap : form.files.map filePart =
        before.map filePart ++ filePart file :: after.map filePart := by
      rw [hsplit, List.map_append, List.map_cons]
    rw [blocks, hmap, ← List.append_assoc] at hsections
    exact file_survives hboundary hfieldKinds hkind hfields hfits hbefore hsections hparts
      (hform.2.trans hsplit)
  refine ⟨?_, hfields, hfiles⟩
  by_contra hempty
  rw [not_or, not_not, not_not] at hempty
  rw [blocks, hempty.1, hempty.2] at hsections
  cases (Multipart.read_write_nil hboundary).symm.trans hsections

end HeaderCodec

/-- A form that is forwarded is received as it was exactly where it is not empty, each field has one
value, no value and no file holds the delimiter, and the receiver reads the names and the types as they
were written. -/
theorem form_survives_iff (codec : HeaderCodec) (framework : Framework) (routes : Routes)
    (request : HttpRequest) (message : HttpRequestMessage) (boundary : List Char) (parts : List Part)
    (form : Form) (hsend : forwardRequestAsync framework routes request = .ok (.send message))
    (hcontent : message.content = .multipart boundary parts)
    (hform : framework.readForm request = .ok form) (hnames : (form.fields.map Prod.fst).Nodup)
    (hkinds : ∀ part ∈ parts, codec.TellsKind part) :
    codec.receive (Utf8.encode boundary) (message.content.bytes codec.write) = some form ↔
      codec.Survives (Utf8.encode boundary) form := by
  obtain ⟨_, _, content, _, _, _, _, _, hbuild, rfl⟩ := forwardRequestAsync_send_iff.mp hsend
  cases hcontent
  obtain ⟨rfl, hvalid, htypes⟩ := parts_of_buildContent hform hbuild
  have hboundary := return_not_mem_boundary hvalid
  constructor
  · exact HeaderCodec.survives_of_receive hboundary hkinds htypes
  · apply HeaderCodec.receive_of_survives hboundary hnames ?_ htypes
    intro field hfield
    exact hkinds _ (List.mem_append_left _ (List.mem_map_of_mem hfield))

/-! ### A codec -/

/-- Without what may not stand between the quotes. -/
def quotable (text : List Char) : List Char := text.filter fun c => !(['"', '\r'].contains c)

theorem quote_not_mem_quotable (text : List Char) : '"' ∉ quotable text := by
  intro hmem
  have hkept := (List.mem_filter.mp hmem).2
  exact absurd hkept (by decide)

theorem return_not_mem_quotable (text : List Char) : '\r' ∉ quotable text := by
  intro hmem
  have hkept := (List.mem_filter.mp hmem).2
  exact absurd hkept (by decide)

/-- Behind the name, between quotes. -/
def fileNameText : Option (List Char) → List Char
  | none => []
  | some fileName => "; filename=\"".toList ++ (quotable fileName ++ ['"'])

def dispositionText (header : PartHeader) : List Char :=
  "Content-Disposition: form-data; name=\"".toList ++
    (quotable header.name ++ (['"'] ++ fileNameText header.fileName))

def contentTypeText (header : PartHeader) : List Char :=
  "Content-Type: ".toList ++ quotable header.contentType

theorem return_not_mem_fileNameText (fileName : Option (List Char)) : '\r' ∉ fileNameText fileName := by
  cases fileName with
  | none => exact List.not_mem_nil
  | some fileName =>
      apply List.not_mem_append (by decide +kernel)
      exact List.not_mem_append (return_not_mem_quotable fileName) (by decide)

theorem return_not_mem_dispositionText (header : PartHeader) : '\r' ∉ dispositionText header := by
  apply List.not_mem_append (by decide +kernel)
  apply List.not_mem_append (return_not_mem_quotable header.name)
  exact List.not_mem_append (by decide) (return_not_mem_fileNameText header.fileName)

theorem return_not_mem_contentTypeText (header : PartHeader) : '\r' ∉ contentTypeText header :=
  List.not_mem_append (by decide +kernel) (return_not_mem_quotable header.contentType)

/-- The line of a text without a line break. -/
def headerLine (text : List Char) (hne : text ≠ []) (hline : '\r' ∉ text) : Multipart.HeaderLine where
  bytes := Utf8.encode text
  nonempty := by
    intro hempty
    apply hne
    rw [← Utf8.decode_encode text, hempty]
    rfl
  oneLine := fun hmem => hline (Utf8.mem_of_ascii_mem_encode (by decide) hmem)

def readHeader : List (List UInt8) → Option PartHeader
  | [first, second] => do
      let contentType ← (Utf8.decode first).dropPrefix? "Content-Type: ".toList
      let text ← (Utf8.decode second).dropPrefix? "Content-Disposition: form-data; name=\"".toList
      let (name, text) ← breakOn? ['"'] text
      if text.isEmpty then return ⟨name, none, contentType⟩
      else do
        let text ← text.dropPrefix? "; filename=\"".toList
        let (fileName, _) ← breakOn? ['"'] text
        return ⟨name, some fileName, contentType⟩
  | _ => none

theorem isSome_of_readHeader {written received : PartHeader}
    (h : readHeader [Utf8.encode (contentTypeText written), Utf8.encode (dispositionText written)] =
      some received) : received.fileName.isSome = written.fileName.isSome := by
  have hdrop : (dispositionText written).dropPrefix?
      "Content-Disposition: form-data; name=\"".toList =
        some (quotable written.name ++ (['"'] ++ fileNameText written.fileName)) :=
    List.dropPrefix?_eq_some_iff.mpr ⟨_, rfl, beq_self_eq_true _⟩
  have hname : breakOn? ['"'] (quotable written.name ++ (['"'] ++ fileNameText written.fileName)) =
      some (quotable written.name, fileNameText written.fileName) := by
    apply breakOn?_append List.not_mem_nil
    intro hmem
    exact quote_not_mem_quotable _ (hmem.subset List.mem_cons_self)
  unfold readHeader at h
  dsimp only at h
  rw [Utf8.decode_encode, Utf8.decode_encode] at h
  obtain ⟨contentType, -, h⟩ := Option.bind_eq_some_iff.mp h
  rw [hdrop, Option.bind_eq_bind, Option.bind_some, hname, Option.bind_eq_bind, Option.bind_some] at h
  cases hfile : written.fileName with
  | none =>
      rw [hfile] at h
      cases h
      rfl
  | some fileName =>
      rw [hfile] at h
      obtain ⟨_, -, h⟩ := Option.bind_eq_some_iff.mp h
      obtain ⟨_, -, h⟩ := Option.bind_eq_some_iff.mp h
      cases h
      rfl

/-- Two lines, with the names between quotes. -/
def quotingCodec : HeaderCodec where
  write header :=
    [headerLine (contentTypeText header) (List.cons_ne_nil _ _) (return_not_mem_contentTypeText header),
      headerLine (dispositionText header) (List.cons_ne_nil _ _) (return_not_mem_dispositionText header)]
  read := readHeader

theorem tellsKind_quotingCodec (part : Part) : quotingCodec.TellsKind part :=
  fun _ h => isSome_of_readHeader h

/-! ### One value and two -/

/-- A form with one field. -/
def nameForm (values : List (List Char)) : Form := ⟨[("full name".toList, values)], []⟩

def nameFramework (values : List (List Char)) : Framework :=
  { plainFramework with readForm := fun _ => .ok (nameForm values) }

/-- What is sent of it. -/
def nameMessage (values : List (List Char)) : HttpRequestMessage where
  method := "POST".toList
  requestUri := ⟨"bookhub-media-service:8011".toList, ["avatar".toList], []⟩
  content := .multipart ("----".toList ++ plainBoundary.text) [fieldPart ("full name".toList, values)]
  headers := []

theorem sends_name (value : List Char) (more : List (List Char)) :
    forwardRequestAsync (nameFramework (value :: more)) appsettings (avatarRequest plainBoundary) =
      .ok (.send (nameMessage (value :: more))) := by
  rfl

theorem name_survives :
    quotingCodec.receive (Utf8.encode ("----".toList ++ plainBoundary.text))
      ((nameMessage ["Zoë".toList]).content.bytes quotingCodec.write) = some (nameForm ["Zoë".toList]) := by
  refine (form_survives_iff quotingCodec (nameFramework ["Zoë".toList]) appsettings
    (avatarRequest plainBoundary) (nameMessage ["Zoë".toList]) _ _ (nameForm ["Zoë".toList])
    (sends_name _ _) rfl rfl (List.pairwise_singleton _ _) fun part _ => tellsKind_quotingCodec part).mpr
      ⟨.inl (List.cons_ne_nil _ _), ?_, ?_⟩
  · intro field hfield
    rw [List.mem_singleton.mp hfield]
    exact ⟨"Zoë".toList, (fieldPart ("full name".toList, ["Zoë".toList])).header, rfl, by decide +kernel,
      by decide +kernel, rfl⟩
  · intro file hfile
    cases hfile

theorem not_form_survives :
    ¬ ∀ (codec : HeaderCodec) (framework : Framework) (routes : Routes) (request : HttpRequest)
        (message : HttpRequestMessage) (boundary : List Char) (parts : List Part) (form : Form),
      forwardRequestAsync framework routes request = .ok (.send message) →
      message.content = .multipart boundary parts →
      framework.readForm request = .ok form → (form.fields.map Prod.fst).Nodup →
      (∀ part ∈ parts, codec.TellsKind part) →
      codec.receive (Utf8.encode boundary) (message.content.bytes codec.write) = some form := by
  intro h
  have hreceived := h quotingCodec (nameFramework ["Zoë".toList, "Ana".toList]) appsettings
    (avatarRequest plainBoundary) (nameMessage ["Zoë".toList, "Ana".toList]) _ _
    (nameForm ["Zoë".toList, "Ana".toList]) (sends_name _ _) rfl rfl (List.pairwise_singleton _ _)
    fun part _ => tellsKind_quotingCodec part
  have hreturn : 13 ∉ Utf8.encode ("----".toList ++ plainBoundary.text) := by decide +kernel
  have hfiles : ∀ file ∈ (nameForm ["Zoë".toList, "Ana".toList]).files, FileFits file := by
    intro file hfile
    cases hfile
  obtain ⟨-, hfields, -⟩ := HeaderCodec.survives_of_receive hreturn
    (fun part _ => tellsKind_quotingCodec part) hfiles hreceived
  obtain ⟨_, _, hvalues, _⟩ := hfields _ List.mem_cons_self
  cases hvalues

end BookHub.ApiGateway
