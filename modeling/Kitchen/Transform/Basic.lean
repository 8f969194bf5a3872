import Kitchen.Failure

namespace Kitchen

structure Transform where
  title : String
  name : String
  input : String
  output : String
  defaults : List Value
  run : Value → List Value → Except Failure Value

namespace Transform

def literal (t : Transform) : String :=
  s!"{t.title}(name={(Value.text t.name).literal})"

def misuse {α : Type} (m : Misuse) : Except Failure α :=
  .error (.misuse m)

end Transform

end Kitchen
