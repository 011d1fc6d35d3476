import StreamWatch.Numeral
import StreamWatch.Text.Quoted

/-!
# YAML documents

A document is a tree of scalars, lists and maps. What a plain scalar stands for depends on its
text; a quoted one is always text. The keys of a map are trees themselves.
-/

namespace StreamWatch.Yaml

/-- A scalar. -/
inductive Scalar where
  | null
  | flag (value : Bool)
  | integer (value : Int)
  /-- A number that is no integer, as it is written. -/
  | real (written : String)
  | text (value : String)
deriving DecidableEq

/-- A part of a document. The keys of a map differ from one another. -/
inductive Node where
  | scalar (value : Scalar)
  | list (elements : List Node)
  | map (entries : List (Node × Node))

instance : Inhabited Node := ⟨.scalar .null⟩

/-- What reads the documents of a text, as far as it can read the text. An alias stands for the
part that it names; a part that is neither a scalar nor a list nor a map is null. -/
abbrev Reader := List Char → Option (List Node)

/-- The scalar without a value. -/
def Node.null : Node := .scalar .null

namespace Scalar

/-- The integer that a plain scalar stands for: decimal, or after a mark for its base. -/
def integer? : List Char → Option Int
  | '0' :: 'x' :: rest => Numeral.integer? 16 rest
  | '0' :: 'o' :: rest => Numeral.integer? 8 rest
  | '+' :: rest => Numeral.integer? 10 rest
  | cs => Numeral.integer? 10 cs

/-- The words for infinity and not-a-number. -/
def realWords : List String :=
  [".inf", ".Inf", ".INF", "+.inf", "+.Inf", "+.INF", "-.inf", "-.Inf", "-.INF",
    ".nan", ".NaN", ".NAN"]

/-- Whether a plain scalar stands for a number that is no integer. -/
def isReal (cs : List Char) : Bool :=
  realWords.contains (String.ofList cs) || cs.any Char.isDigit && (Numeral.real? cs).isSome

/-- What a plain scalar stands for. -/
def ofPlain (cs : List Char) : Scalar :=
  match String.ofList cs with
  | "" | "~" | "null" => .null
  | "true" | "True" | "TRUE" => .flag true
  | "false" | "False" | "FALSE" => .flag false
  | written =>
    match integer? cs with
    | some n => .integer n
    | none => if isReal cs then .real written else .text written

/-- The scalar with the name of its kind. -/
def describe : Scalar → String
  | null => "Null"
  | flag value => s!"Boolean({value})"
  | integer value => s!"Integer({value})"
  | real written => s!"Real({Quoted.encode written})"
  | text value => s!"String({Quoted.encode value})"

end Scalar

namespace Node

/-! ## Comparing and describing parts of documents -/

mutual

/-- Whether two parts of documents are the same; entries are compared in their order. -/
def same : Node → Node → Bool
  | scalar a, scalar b => a = b
  | list as, list bs => sameElements as bs
  | map as, map bs => sameEntries as bs
  | _, _ => false

/-- Whether the elements of two lists are the same. -/
def sameElements : List Node → List Node → Bool
  | [], [] => true
  | a :: as, b :: bs => same a b && sameElements as bs
  | _, _ => false

/-- Whether the entries of two maps are the same. -/
def sameEntries : List (Node × Node) → List (Node × Node) → Bool
  | [], [] => true
  | (k, a) :: as, (l, b) :: bs => same k l && same a b && sameEntries as bs
  | _, _ => false

end

mutual

/-- A part of a document with the names of its kinds. -/
def describe : Node → String
  | scalar value => value.describe
  | list elements => "Array([" ++ ", ".intercalate (describeElements elements) ++ "])"
  | map entries => "Hash(\x7b" ++ ", ".intercalate (describeEntries entries) ++ "\x7d)"

/-- The elements of a list with the names of their kinds. -/
def describeElements : List Node → List String
  | [] => []
  | element :: rest => describe element :: describeElements rest

/-- The entries of a map with the names of their kinds. -/
def describeEntries : List (Node × Node) → List String
  | [] => []
  | (key, value) :: rest => (describe key ++ ": " ++ describe value) :: describeEntries rest

end

end Node

end StreamWatch.Yaml
