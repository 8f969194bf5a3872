import Kitchen.Journal.Record
import Kitchen.Run.Ledger

namespace Kitchen.Journal

def recipeSource : String := "roux.recipe"

def controlSource : String := "roux.flow_control"

def ofEvent? : Run.Event → Option Record
  | .started size start =>
    some ⟨debug, recipeSource, s!"Executing recipe of {size} operations, starting at {start}", []⟩
  | .skipped i op => some ⟨debug, recipeSource, s!"[{i}] {op.name} is disabled, skipping", []⟩
  | .paused i => some ⟨debug, recipeSource, s!"[{i}] Pausing at breakpoint", []⟩
  | .dispatched i op =>
    some ⟨debug, recipeSource, s!"[{i}] {op.name} {(Value.list op.args).literal}", []⟩
  | .tranche k n => some ⟨debug, controlSource, s!"Entering tranche {k} of {n}", []⟩
  | .ignored k b =>
    some ⟨debug, controlSource, s!"Ignoring error in tranche {k}: {Text.Glyph.plain b.message}", []⟩
  | .published _ => none
  | .stayed => some ⟨debug, controlSource, "Maximum jumps reached or label cannot be found", []⟩
  | .jumped label i n =>
    some ⟨debug, controlSource,
      s!"Jumping to label '{label.plain}' at position {i} (jumps = {n})", []⟩
  | .completed => some ⟨debug, recipeSource, "Recipe complete", []⟩

def story (least : Int) (l : Run.Ledger) : List Record :=
  (l.events.toList.filterMap ofEvent?).filter fun r => least ≤ r.level

end Kitchen.Journal
