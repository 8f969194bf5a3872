import Kitchen.Storage.Path

namespace Kitchen

structure Surroundings where
  userHome : Storage.Path
  homes : List (String × Storage.Path)
  chosenHome : Option String
  today : String
  deriving Repr

namespace Surroundings

def expand? (w : Surroundings) (s : String) : Option Storage.Path :=
  (Storage.Path.ofText s).expand? w.userHome w.homes

-- The folder of the program: the one that is chosen, else a hidden one in the home of the user. Nothing if it
-- lies in the home of someone who is not known.
def home? (w : Surroundings) : Option Storage.Path :=
  match w.chosenHome with
  | none | some "" => some (w.userHome.child ".roux")
  | some s => w.expand? s

end Surroundings

end Kitchen
