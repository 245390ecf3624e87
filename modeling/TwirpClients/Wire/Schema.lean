import TwirpClients.Wire.DecodeError

/-!
# The messages of the descriptor format

For every message that can occur in a request or a descriptor set, its fields: the tag, the name
and the type of the value. Reading has to know all of them, not only those that a client is made
from, because a malformed value of a known field is an error while an unknown field is passed over.
-/

namespace TwirpClients.Wire

inductive MessageType where
  | fileDescriptorSet
  | fileDescriptorProto
  | descriptorProto
  | fieldDescriptorProto
  | fieldOptions
  | uninterpretedOption
  | namePart
  | enumDescriptorProto
  | enumValueDescriptorProto
  | enumValueOptions
  | enumOptions
  | enumReservedRange
  | extensionRange
  | extensionRangeOptions
  | messageOptions
  | oneofDescriptorProto
  | oneofOptions
  | reservedRange
  | serviceDescriptorProto
  | methodDescriptorProto
  | methodOptions
  | serviceOptions
  | fileOptions
  | sourceCodeInfo
  | location
  | codeGeneratorRequest
  | version
  | codeGeneratorResponse
  | file
deriving DecidableEq, Repr

/-- The types of fields, as far as they differ in how a value is read. Repeated numbers may also
come as one packed run; for the other types it makes no difference whether a field is repeated. -/
inductive FieldType where
  | text
  | bytes
  | number
  | numbers
  | double
  | message (type : MessageType)
deriving DecidableEq, Repr

structure Field where
  tag : Nat
  name : String
  type : FieldType
deriving DecidableEq, Repr

namespace MessageType

def name : MessageType → String
  | fileDescriptorSet => "FileDescriptorSet"
  | fileDescriptorProto => "FileDescriptorProto"
  | descriptorProto => "DescriptorProto"
  | fieldDescriptorProto => "FieldDescriptorProto"
  | fieldOptions => "FieldOptions"
  | uninterpretedOption => "UninterpretedOption"
  | namePart => "NamePart"
  | enumDescriptorProto => "EnumDescriptorProto"
  | enumValueDescriptorProto => "EnumValueDescriptorProto"
  | enumValueOptions => "EnumValueOptions"
  | enumOptions => "EnumOptions"
  | enumReservedRange => "EnumReservedRange"
  | extensionRange => "ExtensionRange"
  | extensionRangeOptions => "ExtensionRangeOptions"
  | messageOptions => "MessageOptions"
  | oneofDescriptorProto => "OneofDescriptorProto"
  | oneofOptions => "OneofOptions"
  | reservedRange => "ReservedRange"
  | serviceDescriptorProto => "ServiceDescriptorProto"
  | methodDescriptorProto => "MethodDescriptorProto"
  | methodOptions => "MethodOptions"
  | serviceOptions => "ServiceOptions"
  | fileOptions => "FileOptions"
  | sourceCodeInfo => "SourceCodeInfo"
  | location => "Location"
  | codeGeneratorRequest => "CodeGeneratorRequest"
  | version => "Version"
  | codeGeneratorResponse => "CodeGeneratorResponse"
  | file => "File"

/-- The field, common to all options messages, for an option kept as its source text. -/
def uninterpreted : Field := ⟨999, "uninterpreted_option", .message .uninterpretedOption⟩

def fields : MessageType → List Field
  | fileDescriptorSet => [⟨1, "file", .message .fileDescriptorProto⟩]
  | fileDescriptorProto =>
    [⟨1, "name", .text⟩, ⟨2, "package", .text⟩, ⟨3, "dependency", .text⟩,
      ⟨4, "message_type", .message .descriptorProto⟩,
      ⟨5, "enum_type", .message .enumDescriptorProto⟩,
      ⟨6, "service", .message .serviceDescriptorProto⟩,
      ⟨7, "extension", .message .fieldDescriptorProto⟩, ⟨8, "options", .message .fileOptions⟩,
      ⟨9, "source_code_info", .message .sourceCodeInfo⟩, ⟨10, "public_dependency", .numbers⟩,
      ⟨11, "weak_dependency", .numbers⟩, ⟨12, "syntax", .text⟩]
  | descriptorProto =>
    [⟨1, "name", .text⟩, ⟨2, "field", .message .fieldDescriptorProto⟩,
      ⟨3, "nested_type", .message .descriptorProto⟩,
      ⟨4, "enum_type", .message .enumDescriptorProto⟩,
      ⟨5, "extension_range", .message .extensionRange⟩,
      ⟨6, "extension", .message .fieldDescriptorProto⟩, ⟨7, "options", .message .messageOptions⟩,
      ⟨8, "oneof_decl", .message .oneofDescriptorProto⟩,
      ⟨9, "reserved_range", .message .reservedRange⟩, ⟨10, "reserved_name", .text⟩]
  | fieldDescriptorProto =>
    [⟨1, "name", .text⟩, ⟨2, "extendee", .text⟩, ⟨3, "number", .number⟩, ⟨4, "label", .number⟩,
      ⟨5, "r#type", .number⟩, ⟨6, "type_name", .text⟩, ⟨7, "default_value", .text⟩,
      ⟨8, "options", .message .fieldOptions⟩, ⟨9, "oneof_index", .number⟩,
      ⟨10, "json_name", .text⟩, ⟨17, "proto3_optional", .number⟩]
  | fieldOptions =>
    [⟨1, "ctype", .number⟩, ⟨2, "packed", .number⟩, ⟨3, "deprecated", .number⟩,
      ⟨5, "lazy", .number⟩, ⟨6, "jstype", .number⟩, ⟨10, "weak", .number⟩, uninterpreted]
  | uninterpretedOption =>
    [⟨2, "name", .message .namePart⟩, ⟨3, "identifier_value", .text⟩,
      ⟨4, "positive_int_value", .number⟩, ⟨5, "negative_int_value", .number⟩,
      ⟨6, "double_value", .double⟩, ⟨7, "string_value", .bytes⟩, ⟨8, "aggregate_value", .text⟩]
  | namePart => [⟨1, "name_part", .text⟩, ⟨2, "is_extension", .number⟩]
  | enumDescriptorProto =>
    [⟨1, "name", .text⟩, ⟨2, "value", .message .enumValueDescriptorProto⟩,
      ⟨3, "options", .message .enumOptions⟩, ⟨4, "reserved_range", .message .enumReservedRange⟩,
      ⟨5, "reserved_name", .text⟩]
  | enumValueDescriptorProto =>
    [⟨1, "name", .text⟩, ⟨2, "number", .number⟩, ⟨3, "options", .message .enumValueOptions⟩]
  | enumValueOptions => [⟨1, "deprecated", .number⟩, uninterpreted]
  | enumOptions => [⟨2, "allow_alias", .number⟩, ⟨3, "deprecated", .number⟩, uninterpreted]
  | enumReservedRange => [⟨1, "start", .number⟩, ⟨2, "end", .number⟩]
  | extensionRange =>
    [⟨1, "start", .number⟩, ⟨2, "end", .number⟩, ⟨3, "options", .message .extensionRangeOptions⟩]
  | extensionRangeOptions => [uninterpreted]
  | messageOptions =>
    [⟨1, "message_set_wire_format", .number⟩, ⟨2, "no_standard_descriptor_accessor", .number⟩,
      ⟨3, "deprecated", .number⟩, ⟨7, "map_entry", .number⟩, uninterpreted]
  | oneofDescriptorProto => [⟨1, "name", .text⟩, ⟨2, "options", .message .oneofOptions⟩]
  | oneofOptions => [uninterpreted]
  | reservedRange => [⟨1, "start", .number⟩, ⟨2, "end", .number⟩]
  | serviceDescriptorProto =>
    [⟨1, "name", .text⟩, ⟨2, "method", .message .methodDescriptorProto⟩,
      ⟨3, "options", .message .serviceOptions⟩]
  | methodDescriptorProto =>
    [⟨1, "name", .text⟩, ⟨2, "input_type", .text⟩, ⟨3, "output_type", .text⟩,
      ⟨4, "options", .message .methodOptions⟩, ⟨5, "client_streaming", .number⟩,
      ⟨6, "server_streaming", .number⟩]
  | methodOptions =>
    [⟨33, "deprecated", .number⟩, ⟨34, "idempotency_level", .number⟩, uninterpreted]
  | serviceOptions => [⟨33, "deprecated", .number⟩, uninterpreted]
  | fileOptions =>
    [⟨1, "java_package", .text⟩, ⟨8, "java_outer_classname", .text⟩,
      ⟨9, "optimize_for", .number⟩, ⟨10, "java_multiple_files", .number⟩,
      ⟨11, "go_package", .text⟩, ⟨16, "cc_generic_services", .number⟩,
      ⟨17, "java_generic_services", .number⟩, ⟨18, "py_generic_services", .number⟩,
      ⟨20, "java_generate_equals_and_hash", .number⟩, ⟨23, "deprecated", .number⟩,
      ⟨27, "java_string_check_utf8", .number⟩, ⟨31, "cc_enable_arenas", .number⟩,
      ⟨36, "objc_class_prefix", .text⟩, ⟨37, "csharp_namespace", .text⟩,
      ⟨39, "swift_prefix", .text⟩, ⟨40, "php_class_prefix", .text⟩, ⟨41, "php_namespace", .text⟩,
      ⟨42, "php_generic_services", .number⟩, ⟨44, "php_metadata_namespace", .text⟩,
      ⟨45, "ruby_package", .text⟩, uninterpreted]
  | sourceCodeInfo => [⟨1, "location", .message .location⟩]
  | location =>
    [⟨1, "path", .numbers⟩, ⟨2, "span", .numbers⟩, ⟨3, "leading_comments", .text⟩,
      ⟨4, "trailing_comments", .text⟩, ⟨6, "leading_detached_comments", .text⟩]
  | codeGeneratorRequest =>
    [⟨1, "file_to_generate", .text⟩, ⟨2, "parameter", .text⟩,
      ⟨3, "compiler_version", .message .version⟩,
      ⟨15, "proto_file", .message .fileDescriptorProto⟩]
  | version =>
    [⟨1, "major", .number⟩, ⟨2, "minor", .number⟩, ⟨3, "patch", .number⟩, ⟨4, "suffix", .text⟩]
  | codeGeneratorResponse =>
    [⟨1, "error", .text⟩, ⟨2, "supported_features", .number⟩, ⟨15, "file", .message .file⟩]
  | file => [⟨1, "name", .text⟩, ⟨15, "content", .text⟩]

def field? (type : MessageType) (tag : Nat) : Option Field :=
  type.fields.find? (·.tag == tag)

end MessageType

def Field.errorName (field : Field) (type : MessageType) : FieldName := ⟨type.name, field.name⟩

end TwirpClients.Wire
