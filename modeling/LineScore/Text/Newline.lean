/-! Line ends: a carriage return, alone or before a line feed, is read as a line feed. -/

namespace LineScore.Text

/-- Every line end written as a line feed. -/
def unifyNewlines : List Char → List Char
  | [] => []
  | '\r' :: '\n' :: rest => '\n' :: unifyNewlines rest
  | '\r' :: rest => '\n' :: unifyNewlines rest
  | c :: rest => c :: unifyNewlines rest

end LineScore.Text
