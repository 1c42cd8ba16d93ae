import Galley.Json.Writer

/-!
# Error reports

Every failure that leaves the library is a report: a code that callers branch on, a message, named
context values and sometimes a suggestion.
-/

namespace Galley

/-- The kinds of failure. -/
inductive Report.Code where
  | fontLoadFailed
  | fontFetchError
  | imageLoadFailed
  | imageFetchError
  | invalidImageSource
  | unknownImageFormat
  | invalidBase64Image
  | localFileNotSupported
  | noPages
  | invalidDocument
  | unknownEngine
  | componentDepthExceeded
  | renderFailed
  deriving DecidableEq

namespace Report.Code

/-- All codes, assets first. -/
def all : List Code := [
  fontLoadFailed, fontFetchError, imageLoadFailed, imageFetchError, invalidImageSource,
  unknownImageFormat, invalidBase64Image, localFileNotSupported, noPages, invalidDocument,
  unknownEngine, componentDepthExceeded, renderFailed]

/-- The name of a code in messages and data. -/
def name : Code → String
  | fontLoadFailed => "FONT_LOAD_FAILED"
  | fontFetchError => "FONT_FETCH_ERROR"
  | imageLoadFailed => "IMAGE_LOAD_FAILED"
  | imageFetchError => "IMAGE_FETCH_ERROR"
  | invalidImageSource => "INVALID_IMAGE_SOURCE"
  | unknownImageFormat => "UNKNOWN_IMAGE_FORMAT"
  | invalidBase64Image => "INVALID_BASE64_IMAGE"
  | localFileNotSupported => "LOCAL_FILE_NOT_SUPPORTED"
  | noPages => "NO_PAGES"
  | invalidDocument => "INVALID_DOCUMENT"
  | unknownEngine => "UNKNOWN_ENGINE"
  | componentDepthExceeded => "COMPONENT_DEPTH_EXCEEDED"
  | renderFailed => "RENDER_FAILED"

/-- The code with a name. -/
def ofName? (s : String) : Option Code := all.find? fun c => c.name = s

/-- Is it a failure of font or image resolution? -/
def isAsset : Code → Bool
  | noPages | invalidDocument | unknownEngine | componentDepthExceeded | renderFailed => false
  | _ => true

end Report.Code

/-- A failure as callers see it. -/
structure Report where
  code : Report.Code
  message : String
  context : Dict Json
  suggestion : Option String

namespace Report

/-- A report without context and suggestion. -/
def of (code : Code) (message : String) : Report := ⟨code, message, .empty, none⟩

/-- The report with a context value, in place of an earlier one of that name. -/
def note (r : Report) (key : String) (value : Json) : Report :=
  { r with context := r.context.insert key value }

/-- The report with a suggestion. -/
def suggest (r : Report) (text : String) : Report := { r with suggestion := some text }

/-- The report within text. -/
def display (r : Report) : String := "[" ++ r.code.name ++ "] " ++ r.message

/-- The report as data. Empty parts are left out. -/
def toJson (r : Report) : Json :=
  .presentMembers [
    ("code", some (.text r.code.name)),
    ("message", some (.text r.message)),
    ("context", if r.context.size = 0 then none else some (.object r.context.entries)),
    ("suggestion", r.suggestion.map .text)]

end Report

end Galley
