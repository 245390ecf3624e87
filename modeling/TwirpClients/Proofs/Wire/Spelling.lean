import TwirpClients.Proofs.Wire.Reading

/-!
# How a message is spelled

The bytes of a message are its fields one after the other, each with its key in front. `Spells` says
this as a relation between bytes and records, without a reader, for messages of texts, numbers and
messages: fields may come in any order, and nothing bounds a length. The record is determined by
the bytes (`Spells.unique`), and reading finds it, as long as the bytes can be counted in 64 bits
and messages are not nested too deep (`ofBytes_of_spells`).
-/

namespace TwirpClients.Wire

namespace MessageType

def Has (type : MessageType) (tag : Nat) (fieldType : FieldType) : Prop :=
  ∃ name, type.field? tag = some ⟨tag, name, fieldType⟩

theorem tag_bounds (type : MessageType) :
    ∀ field ∈ type.fields, 0 < field.tag ∧ field.tag < 2 ^ 29 := by
  cases type <;> decide

theorem Has.tag_bounds {type : MessageType} {tag : Nat} {fieldType : FieldType}
    (h : type.Has tag fieldType) : 0 < tag ∧ tag < 2 ^ 29 := by
  obtain ⟨name, hfield⟩ := h
  exact type.tag_bounds _ (List.mem_of_find?_eq_some hfield)

theorem Has.unique {type : MessageType} {tag : Nat} {fieldType fieldType' : FieldType}
    (h : type.Has tag fieldType) (h' : type.Has tag fieldType') : fieldType' = fieldType := by
  obtain ⟨name, hfield⟩ := h
  obtain ⟨name', hfield'⟩ := h'
  rw [hfield] at hfield'
  simp at hfield'
  exact hfield'.2.symm

end MessageType

/-- The bytes are those of the record, as a message of the type. The number bounds how deep
messages are nested in it. -/
inductive Spells : Nat → MessageType → Bytes → Record → Prop
  | nil {depth : Nat} {type : MessageType} : Spells depth type [] []
  | text {depth : Nat} {type : MessageType} {tag : Nat} {s : String} {bytes : Bytes}
      {record : Record} (known : type.Has tag .text) (rest : Spells depth type bytes record) :
      Spells depth type (Writer.text tag s ++ bytes) ((tag, .text s) :: record)
  | number {depth : Nat} {type : MessageType} {tag n : Nat} {bytes : Bytes} {record : Record}
      (known : type.Has tag .number) (size : n < 2 ^ 64)
      (rest : Spells depth type bytes record) :
      Spells depth type (Writer.number tag n ++ bytes) ((tag, .number n) :: record)
  | message {depth : Nat} {type inner : MessageType} {tag : Nat} {body bytes : Bytes}
      {fields record : Record} (known : type.Has tag (.message inner))
      (value : Spells depth inner body fields) (rest : Spells (depth + 1) type bytes record) :
      Spells (depth + 1) type (Writer.message tag body ++ bytes) ((tag, .record fields) :: record)

namespace Writer

theorem varint_ne_nil (n : Nat) : varint n ≠ [] := by
  rw [varint]
  split <;> simp

theorem key_append_inj {tag tag' : Nat} {wireType wireType' : WireType} {rest rest' : Bytes}
    (h : key tag wireType ++ rest = key tag' wireType' ++ rest') :
    tag = tag' ∧ wireType = wireType' ∧ rest = rest' := by
  obtain ⟨hvalue, hrest⟩ := Reader.varint_append_inj h
  have hcode := wireType.code_lt
  have hcode' := wireType'.code_lt
  have htag : tag = tag' := by omega
  have hcodes : wireType.code = wireType'.code := by omega
  have htypes := congrArg WireType.ofCode? hcodes
  rw [WireType.ofCode?_code, WireType.ofCode?_code] at htypes
  exact ⟨htag, Option.some.inj htypes, hrest⟩

theorem message_append_inj {tag tag' : Nat} {body body' rest rest' : Bytes}
    (h : message tag body ++ rest = message tag' body' ++ rest') :
    tag = tag' ∧ body = body' ∧ rest = rest' := by
  simp only [message, block, List.append_assoc] at h
  obtain ⟨htag, -, hblock⟩ := key_append_inj h
  obtain ⟨hlength, hbytes⟩ := Reader.varint_append_inj hblock
  obtain ⟨hbody, hrest⟩ := List.append_inj hbytes hlength
  exact ⟨htag, hbody, hrest⟩

theorem number_append_inj {tag tag' n n' : Nat} {rest rest' : Bytes}
    (h : number tag n ++ rest = number tag' n' ++ rest') : tag = tag' ∧ n = n' ∧ rest = rest' := by
  simp only [number, List.append_assoc] at h
  obtain ⟨htag, -, hvalue⟩ := key_append_inj h
  exact ⟨htag, Reader.varint_append_inj hvalue⟩

theorem message_append_ne_number {tag tag' n : Nat} {body rest rest' : Bytes} :
    message tag body ++ rest ≠ number tag' n ++ rest' := by
  intro h
  simp only [message, number, List.append_assoc] at h
  obtain ⟨-, hwire, -⟩ := key_append_inj h
  cases hwire

theorem message_ne_nil (tag : Nat) (body : Bytes) : message tag body ≠ [] := by
  simp [message, key, varint_ne_nil]

theorem number_ne_nil (tag n : Nat) : number tag n ≠ [] := by
  simp [number, key, varint_ne_nil]

end Writer

namespace Spells

variable {depth : Nat} {type inner : MessageType} {bytes bytes' : Bytes} {record record' : Record}

theorem append (h : Spells depth type bytes record) (h' : Spells depth type bytes' record') :
    Spells depth type (bytes ++ bytes') (record ++ record') := by
  induction h with
  | nil => exact h'
  | text known rest ih =>
    rw [List.append_assoc]
    exact .text known (ih h')
  | number known size rest ih =>
    rw [List.append_assoc]
    exact .number known size (ih h')
  | message known value rest ihvalue ih =>
    rw [List.append_assoc]
    exact .message known value (ih h')

theorem unique (h : Spells depth type bytes record) {depth' : Nat}
    (h' : Spells depth' type bytes record') : record' = record := by
  induction h generalizing depth' record' with
  | nil =>
    generalize hbytes : ([] : Bytes) = all at h'
    cases h' with
    | nil => rfl
    | text known rest => simp [Writer.text, Writer.message_ne_nil] at hbytes
    | number known size rest => simp [Writer.number_ne_nil] at hbytes
    | message known value rest => simp [Writer.message_ne_nil] at hbytes
  | @text _ type tag s bytes record known rest ih =>
    generalize hbytes : Writer.text tag s ++ bytes = all at h'
    cases h' with
    | nil => simp [Writer.text, Writer.message_ne_nil] at hbytes
    | text known' rest' =>
      obtain ⟨rfl, hs, rfl⟩ := Writer.message_append_inj hbytes
      rw [eq_of_utf8_eq hs, ih rest']
    | number known' size rest' => exact absurd hbytes Writer.message_append_ne_number
    | message known' value rest' =>
      obtain ⟨rfl, -, -⟩ := Writer.message_append_inj hbytes
      cases known.unique known'
  | @number _ type tag n bytes record known size rest ih =>
    generalize hbytes : Writer.number tag n ++ bytes = all at h'
    cases h' with
    | nil => simp [Writer.number_ne_nil] at hbytes
    | text known' rest' => exact absurd hbytes.symm Writer.message_append_ne_number
    | number known' size rest' =>
      obtain ⟨rfl, rfl, rfl⟩ := Writer.number_append_inj hbytes
      rw [ih rest']
    | message known' value rest' => exact absurd hbytes.symm Writer.message_append_ne_number
  | @message _ type inner tag body bytes fields record known value rest ihvalue ih =>
    generalize hbytes : Writer.message tag body ++ bytes = all at h'
    cases h' with
    | nil => simp [Writer.message_ne_nil] at hbytes
    | text known' rest' =>
      obtain ⟨rfl, -, -⟩ := Writer.message_append_inj hbytes
      cases known.unique known'
    | number known' size rest' => exact absurd hbytes Writer.message_append_ne_number
    | message known' value' rest' =>
      obtain ⟨rfl, rfl, rfl⟩ := Writer.message_append_inj hbytes
      cases known.unique known'
      rw [ihvalue value', ih rest']

end Spells

namespace Reader

variable {nested : MessageType → Reader Record} {skip : WireType → Nat → Reader Unit}
  {type inner : MessageType} {tag : Nat}

theorem reads_field {fieldType : FieldType} {wireType : WireType} {payload : Bytes}
    {vs : List Value} (known : type.Has tag fieldType)
    (hvalues : Reads (values nested fieldType wireType) payload vs) :
    Reads (field nested skip type) (Writer.key tag wireType ++ payload) (vs.map (tag, ·)) := by
  obtain ⟨hpos, hlt⟩ := known.tag_bounds
  obtain ⟨name, hfield⟩ := known
  refine (reads_key hpos hlt wireType).bind ?_
  simp only [hfield]
  exact (hvalues.within _).bind_pure _

theorem expect_bind {β : Type} (wireType : WireType) (r : Reader β) :
    (expect wireType wireType >>= fun _ => r) = r := by
  funext bytes
  simp only [expect, ne_eq, not_true_eq_false, if_false]
  rfl

theorem reads_field_text {s : String} (known : type.Has tag .text)
    (hlength : s.toUTF8.data.toList.length < 2 ^ 64) :
    Reads (field nested skip type) (Writer.text tag s) [(tag, .text s)] := by
  have hvalues : Reads (values nested .text .lengthDelimited)
      (Writer.block s.toUTF8.data.toList) [.text s] := by
    simp only [values, expect_bind]
    exact (reads_text hlength).bind_pure _
  exact reads_field known hvalues

theorem reads_field_number {n : Nat} (known : type.Has tag .number) (hn : n < 2 ^ 64) :
    Reads (field nested skip type) (Writer.number tag n) [(tag, .number n)] := by
  have hvalues : Reads (values nested .number .varint) (Writer.varint n) [.number n] := by
    simp only [values, expect_bind]
    exact (reads_varint hn).bind_pure _
  exact reads_field known hvalues

theorem reads_field_message {body : Bytes} {fields : Record}
    (known : type.Has tag (.message inner))
    (hnested : Reads (nested inner) (Writer.block body) fields) :
    Reads (field nested skip type) (Writer.message tag body) [(tag, .record fields)] := by
  have hvalues : Reads (values nested (.message inner) .lengthDelimited)
      (Writer.block body) [.record fields] := by
    simp only [values, expect_bind]
    exact hnested.bind_pure _
  exact reads_field known hvalues

end Reader

theorem flatten_map_singleton (record : Record) :
    (record.map fun field => [field]).flatten = record := by
  rw [← List.flatMap_def, List.flatMap_singleton']

namespace Spells

variable {depth : Nat} {type : MessageType} {bytes : Bytes} {record : Record}

theorem fills (h : Spells depth type bytes record) (hlength : bytes.length < 2 ^ 64) {limit : Nat}
    (hlimit : depth ≤ limit) :
    Reader.Fills (Reader.field (Reader.message limit) (Reader.skip limit) type) bytes
      (record.map fun field => [field]) := by
  induction h generalizing limit with
  | nil => exact Reader.fills_nil _
  | text known rest ih =>
    simp only [Writer.text, Writer.message, Writer.block, List.length_append] at hlength
    exact (Reader.reads_field_text known (by omega)).fills_cons (Writer.message_ne_nil _ _)
      (ih (by omega) hlimit)
  | number known size rest ih =>
    simp only [List.length_append] at hlength
    exact (Reader.reads_field_number known size).fills_cons (Writer.number_ne_nil _ _)
      (ih (by omega) hlimit)
  | @message depth _ _ _ _ _ _ _ known value rest ihvalue ih =>
    simp only [Writer.message, Writer.block, List.length_append] at hlength
    -- the body is read by the same reader with one level less to go
    obtain ⟨below, rfl⟩ : ∃ below, limit = below + 1 := ⟨limit - 1, by omega⟩
    have hbelow : depth ≤ below := by omega
    have hbody := (ihvalue (by omega) hbelow).delimited (by omega)
    have hmessage := hbody.bind_pure List.flatten
    rw [flatten_map_singleton] at hmessage
    exact (Reader.reads_field_message known hmessage).fills_cons (Writer.message_ne_nil _ _)
      (ih (by omega) hlimit)

end Spells

theorem ofBytes_of_spells {depth : Nat} {type : MessageType} {bytes : Bytes} {record : Record}
    (h : Spells depth type bytes record) (hdepth : depth ≤ maxDepth)
    (hlength : bytes.length < 2 ^ 64) : Record.ofBytes type bytes = .ok record := by
  have hfills := h.fills hlength hdepth []
  rw [List.append_nil, List.length_nil] at hfills
  rw [Record.ofBytes, hfills]
  simp only [Except.map, flatten_map_singleton]

/-! The kinds of fields that descriptors and responses are made of: a text that may be absent, a
number, and any number of messages. -/

namespace Record

def ofText? (tag : Nat) (text : Option String) : Record :=
  text.toList.map fun s => (tag, .text s)

def ofNumber (tag n : Nat) : Record := [(tag, .number n)]

def ofRecords (tag : Nat) (parts : List Record) : Record :=
  parts.map fun fields => (tag, .record fields)

variable (tag tag' n : Nat) (text : Option String) (parts : List Record)

@[simp] theorem text?_append (r s : Record) :
    (r ++ s).text? tag = (s.text? tag).or (r.text? tag) := by
  simp [text?, texts_append, List.getLast?_append]

@[simp] theorem text?_ofText? :
    (ofText? tag text).text? tag' = if tag = tag' then text else none := by
  by_cases h : tag = tag' <;> cases text <;> simp [ofText?, text?, texts, h]

@[simp] theorem text?_ofNumber : (ofNumber tag n).text? tag' = none := by
  simp [ofNumber, text?, texts]

@[simp] theorem text?_ofRecords : (ofRecords tag parts).text? tag' = none := by
  simp [ofRecords, text?, texts]

@[simp] theorem number?_append (r s : Record) :
    (r ++ s).number? tag = (s.number? tag).or (r.number? tag) := by
  simp [number?, numbers_append, List.getLast?_append]

@[simp] theorem number?_ofText? : (ofText? tag text).number? tag' = none := by
  cases text <;> simp [ofText?, number?, numbers]

@[simp] theorem number?_ofNumber :
    (ofNumber tag n).number? tag' = if tag = tag' then some n else none := by
  by_cases h : tag = tag' <;> simp [ofNumber, number?, numbers, h]

@[simp] theorem number?_ofRecords : (ofRecords tag parts).number? tag' = none := by
  simp [ofRecords, number?, numbers]

@[simp] theorem records_ofText? : (ofText? tag text).records tag' = [] := by
  cases text <;> simp [ofText?, records]

@[simp] theorem records_ofNumber : (ofNumber tag n).records tag' = [] := by
  simp [ofNumber, records]

@[simp] theorem records_ofRecords :
    (ofRecords tag parts).records tag' = if tag = tag' then parts else [] := by
  by_cases h : tag = tag'
  · simp only [ofRecords, records, List.filterMap_map, Function.comp_def, h, if_true,
      List.filterMap_some]
  · simp [ofRecords, records, h]

end Record

namespace Spells

variable {depth : Nat} {type inner : MessageType} {tag : Nat}

theorem ofText? (known : type.Has tag .text) (s : Option String) :
    Spells depth type (Writer.text? tag s) (Record.ofText? tag s) := by
  cases s with
  | none => exact .nil
  | some s => simpa [Writer.text?, Record.ofText?] using Spells.text known .nil

theorem ofNumber {n : Nat} (known : type.Has tag .number) (size : n < 2 ^ 64) :
    Spells depth type (Writer.number tag n) (Record.ofNumber tag n) := by
  simpa [Record.ofNumber] using Spells.number known size .nil

theorem ofRecords {α : Type} {toBytes : α → Bytes} {toRecord : α → Record}
    (known : type.Has tag (.message inner))
    (hparts : ∀ a, Spells depth inner (toBytes a) (toRecord a)) (as : List α) :
    Spells (depth + 1) type (as.flatMap fun a => Writer.message tag (toBytes a))
      (Record.ofRecords tag (as.map toRecord)) := by
  induction as with
  | nil => exact .nil
  | cons a as ih => exact .message known (hparts a) ih

end Spells

end TwirpClients.Wire
