/-!
# Descriptors of proto files

What a client needs to know of a compiled proto file: its name and package, the
namespace asked for in its options, and its services with their methods. Every text
may be absent, which differs from an empty one; where only its value counts, an absent
text reads as empty.

Descriptors are never resolved against each other: type names are opaque texts, so a
set whose imports are incomplete is as good as a complete one.
-/

namespace TwirpClients

structure MethodDescriptor where
  name : Option String := none
  inputType : Option String := none
  outputType : Option String := none
deriving DecidableEq, Repr

structure ServiceDescriptor where
  name : Option String := none
  methods : List MethodDescriptor := []
deriving DecidableEq, Repr

structure FileOptions where
  csharpNamespace : Option String := none
deriving DecidableEq, Repr

structure FileDescriptor where
  name : Option String := none
  package : Option String := none
  options : Option FileOptions := none
  services : List ServiceDescriptor := []
deriving DecidableEq, Repr

/-- The name by which the file is looked up; an unnamed file answers to the empty name. -/
def FileDescriptor.lookupName (file : FileDescriptor) : String := file.name.getD ""

/-- The namespace given in the options, whether empty or not. -/
def FileDescriptor.explicitNamespace? (file : FileDescriptor) : Option String :=
  file.options.bind (·.csharpNamespace)

structure DescriptorSet where
  files : List FileDescriptor := []
deriving DecidableEq, Repr

namespace DescriptorSet

/-- The first file of that name. Names are compared as they are, without any rule for
paths or letter case. -/
def find? (set : DescriptorSet) (name : String) : Option FileDescriptor :=
  set.files.find? (·.lookupName == name)

def filesWithServices (set : DescriptorSet) : List String :=
  (set.files.filter (!·.services.isEmpty)).map (·.lookupName)

end DescriptorSet
end TwirpClients
