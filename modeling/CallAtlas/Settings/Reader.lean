import CallAtlas.Number.Binary32.Sine
import CallAtlas.Settings.Sanitize
import CallAtlas.Settings.Slot
import CallAtlas.Json.Record

/-!
Settings as text. Every section and every field may be left out and then keeps its standard value.
-/

namespace CallAtlas

set_option autoImplicit false

open Json (readFloat32 readNat readOptionalString readRecord)

/-- A field of the settings as a field of a record. -/
def Slot.field {σ : Type} : Slot Float32 σ → Json.Field σ
  | .scalar name _ set => .of name readFloat32 set
  | .count name _ set => .of name readNat set
  | .text name _ set => .of name readOptionalString set

namespace Settings

def fields : List (Json.Field (Settings Float32)) :=
  [.of "simulation" (readRecord "SimulationConfig" (SimulationSettings.slots.map Slot.field) .standard)
     fun s part => { s with simulation := part },
   .of "layout" (readRecord "LayoutConfig" (LayoutSettings.slots.map Slot.field) .standard)
     fun s part => { s with layout := part },
   .of "viewport" (readRecord "ViewportConfig" (ViewportSettings.slots.map Slot.field) .standard)
     fun s part => { s with viewport := part },
   .of "minimap" (readRecord "MinimapConfig" (MinimapSettings.slots.map Slot.field) .standard)
     fun s part => { s with minimap := part }]

/-- The settings that a text asks for, as they are written. -/
def parse (text : String) : Except Json.ReadError (Settings Float32) :=
  Json.readDocument (readRecord "EngineConfig" fields .standard) text

end Settings

end CallAtlas
