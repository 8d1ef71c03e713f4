import LineScore.Text.Loose

/-! JSON values. Whole numbers and other numbers are different values, and the fields of an object keep
their order. -/

namespace LineScore

inductive Json where
  | null
  | bool (value : Bool)
  | integer (value : Int)
  /-- A number with a fraction or an exponent, as it is written. -/
  | decimal (literal : String)
  | string (value : LooseText)
  | array (items : List Json)
  | object (fields : List (LooseText × Json))
  deriving Repr, Inhabited

namespace Json

/-- What values are nested in. -/
inductive Container where
  | array
  | object
  deriving DecidableEq, Repr

def Container.text : Container → String
  | .array => "array"
  | .object => "object"

/-- Gives a field a value. A field that is there keeps its place. -/
def put (fields : List (LooseText × Json)) (key : LooseText) (value : Json) : List (LooseText × Json) :=
  if fields.any fun f => f.1 = key then fields.map fun f => if f.1 = key then (key, value) else f
  else fields ++ [(key, value)]

def get? (fields : List (LooseText × Json)) (key : LooseText) : Option Json :=
  (fields.find? fun f => f.1 = key).map Prod.snd

end Json

end LineScore
