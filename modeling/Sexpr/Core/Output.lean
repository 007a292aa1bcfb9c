import Sexpr.Operation
import Sexpr.Form.Printer

/-! Output of forms. -/
namespace Sexpr.Core.Output

/-- The end of the line is written together with it. -/
def prn : Operation where
  name := "prn"
  description := "Print arguments separated by spaces, followed by a newline"
  arity := none
  run args := .ok { value := .nil, output := Form.line args ++ "\n" }

def all : List Operation := [prn]

end Sexpr.Core.Output
