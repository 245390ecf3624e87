import TwirpClients.Json.Token

/-!
# JSON values

`Json.parse?` reads a text as one value. It goes through the tokens with a stack of the
lists and objects that are still open, so it is a fold, and nesting has no limit.

Objects keep their members in order, and a name may occur in them more than once. A string that
has no text (its code units do not pair up) is `text none`.
-/

namespace TwirpClients

inductive Json where
  | null
  | bool (value : Bool)
  | number (text : String)
  | text (text : Option String)
  | list (items : List Json)
  | object (members : List (Option String × Json))
deriving Inhabited

namespace Json

/-- A list or object that is still open, with what it holds so far, last first; an object also
with the name of the member whose value is being read. -/
inductive Frame where
  | list (items : List Json)
  | member (members : List (Option String × Json)) (name : Option String)

/-- What has been read and what may come next: a value; the first item of a list or its end; the
first name of an object or its end; another name; the colon behind a name; or, after a
value, what ends it. -/
inductive State where
  | value (stack : List Frame)
  | firstItem (stack : List Frame)
  | firstName (stack : List Frame)
  | name (members : List (Option String × Json)) (stack : List Frame)
  | colon (members : List (Option String × Json)) (name : Option String) (stack : List Frame)
  | done (value : Json) (stack : List Frame)

def State.start? (stack : List Frame) : Token → Option State
  | .null => some (.done .null stack)
  | .bool b => some (.done (.bool b) stack)
  | .number s => some (.done (.number s) stack)
  | .text s => some (.done (.text s) stack)
  | .listStart => some (.firstItem stack)
  | .objectStart => some (.firstName stack)
  | _ => none

def State.step? : State → Token → Option State
  | .value stack, token => start? stack token
  | .firstItem stack, .listEnd => some (.done (.list []) stack)
  | .firstItem stack, token => start? (.list [] :: stack) token
  | .firstName stack, .objectEnd => some (.done (.object []) stack)
  | .firstName stack, .text key => some (.colon [] key stack)
  | .name members stack, .text key => some (.colon members key stack)
  | .colon members key stack, .colon => some (.value (.member members key :: stack))
  | .done v (.list items :: stack), .comma => some (.value (.list (v :: items) :: stack))
  | .done v (.list items :: stack), .listEnd => some (.done (.list (v :: items).reverse) stack)
  | .done v (.member members key :: stack), .comma => some (.name ((key, v) :: members) stack)
  | .done v (.member members key :: stack), .objectEnd =>
    some (.done (.object ((key, v) :: members).reverse) stack)
  | _, _ => none

def parse? (text : String) : Option Json := do
  let tokens ← tokens? text.toList
  match ← tokens.foldlM State.step? (.value []) with
  | .done v [] => some v
  | _ => none

/-! ## Reading values as data -/

def text? : Json → Option String
  | .text s => s
  | _ => none

def listOf? (item? : Json → Option α) : Json → Option (List α)
  | .list items => items.mapM item?
  | _ => none

def only? (members : List (Option String × Json)) (name : String) : Option Json :=
  match members.filter (·.1 == some name) with
  | [(_, v)] => some v
  | _ => none

/-- The values of a record with these fields, in this order. A record is an object that has each
field once, whatever other members it has, or the list of the values; every name in it has to be
a text. -/
def fields? (names : List String) : Json → Option (List Json)
  | .list items => if items.length = names.length then some items else none
  | .object members => if members.all (·.1.isSome) then names.mapM (only? members) else none
  | _ => none

end Json
end TwirpClients
