import Galley.Document.Measure
import Galley.Json.Writer
import Galley.Press.Context

/-!
# Engines

An engine makes bytes of a context. It may fail with a report, which is passed on unchanged, or in
a way of its own, of which only the text is known.
-/

namespace Galley.Press

/-- The failure of an engine. -/
inductive Failure where
  | reported (report : Report)
  | foreign (message : String)

/-- The failure as a fault. -/
def Failure.fault : Failure → Fault
  | reported r => .reported r
  | foreign message => .foreign message

/-- A maker of bytes. -/
abbrev Engine := Context → Except Failure Bytes

namespace Engine

/-- The text of a document, with bars between its sheets. -/
def text : Engine := fun c =>
  .ok (Bytes.ofText ("|".intercalate (c.document.sheets.map Document.Sheet.textContent)))

/-- The faces and the image ids of a context, as JSON text. -/
def manifest : Engine := fun c =>
  .ok (Bytes.ofText
    (Json.ofMembers [
      ("fonts", .list (c.fonts.map fun f => .text f.face.display)),
      ("images", .list (c.images.keys.map .text))]).toText)

/-- The engine that always fails. -/
def failing (failure : Failure) : Engine := fun _ => .error failure

end Engine

end Galley.Press
