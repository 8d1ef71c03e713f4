import LineScore.Proofs.Flaws

/-! The shape of a song document, told of the JSON value itself. An object has the fields that its rules name
and no others, and what stands in a field is of the kind that the field allows. A document is refused as
malformed exactly when it has not got this shape; whatever else is wrong with it is told by other errors. -/

namespace LineScore

namespace Json

/-- What an object may have under a key, and whether it has to have the key. -/
structure FieldRule where
  key : LooseText
  isRequired : Bool
  allows : Json → Prop

namespace FieldRule

def required (key : LooseText) (allows : Json → Prop) : FieldRule :=
  ⟨key, true, allows⟩

def optional (key : LooseText) (allows : Json → Prop) : FieldRule :=
  ⟨key, false, allows⟩

@[simp] theorem key_required (key : LooseText) (allows : Json → Prop) : (required key allows).key = key := rfl

@[simp] theorem key_optional (key : LooseText) (allows : Json → Prop) : (optional key allows).key = key := rfl

end FieldRule

end Json

namespace Checked

variable {α β : Type}

end Checked

namespace Schema

open Checked Json

variable {α : Type} {read : Json → Checked α} {kind : Json → Prop} {fields : List (LooseText × Json)}

end Schema

namespace Document

end Document

end LineScore
