import Galley.Font.Face
import Galley.Json.Decode
import Galley.Report

/-!
# Faults

What can go wrong, as causes with their circumstances. `Fault.report` words each of them for
callers.
-/

namespace Galley

/-- One step from a value to a part of it. -/
inductive Fault.Step where
  /-- The item of a list of children. -/
  | child (index : Nat)
  /-- The only child, given without a list. -/
  | onlyChild
  /-- The properties of a node. -/
  | props
  deriving DecidableEq

/-- The steps from the root to a part, in order. -/
abbrev Fault.Path := List Fault.Step

/-- Why a part of a tree is no tree. -/
inductive Fault.Malformed where
  | notObject (found : Json)
  | noType
  | badType (found : Json)
  | badProps (found : Json)
  | props (mismatch : Json.Mismatch)

/-- Why a font face did not load. -/
inductive Fault.FontCause where
  /-- No response came. -/
  | unreachable (message : String)
  /-- The response was no success. -/
  | status (code : Nat)
  /-- The stylesheet of a catalog family names no font file. -/
  | noFile (name : String)
  | emptyFile
  | emptyRegistration
  deriving DecidableEq

/-- What can go wrong. -/
inductive Fault where
  /-- A JSON text that breaks off at a line and a column. -/
  | syntaxError (line column : Nat)
  | configuration
  | malformed (path : Fault.Path) (cause : Fault.Malformed)
  | unknownPageSize (name : String)
  | badPageSize (width height : Float)
  | badMargin (input token : String)
  | marginCount (input : String)
  /-- A component that was expanded up to the limit, ending at another one. -/
  | endlessComponent (component last : String) (limit : Nat)
  | tooDeep (tag : String) (limit : Nat)
  | noImageSource
  | noPages
  | font (face : Font.Face) (url : Option String) (cause : Fault.FontCause)
  | unknownBytes (id : String)
  | unknownFormat (url : String)
  | endlessSource (id : String) (limit : Nat)
  | localFile (url : String)
  | imageUnreachable (url message : String)
  | imageStatus (url : String) (code : Nat)
  | malformedDataUri (id : String)
  | undecodableDataUri (id : String)
  | emptyDataUri (id : String)
  | unknownSubtype (id subtype : String)
  | unknownEngine (name : String) (available : List String)
  | badUserAgent
  /-- A failure of something outside the library, by its text. -/
  | foreign (message : String)
  /-- A report that was made elsewhere and passes through unchanged. -/
  | reported (report : Report)

namespace Fault

/-- A step within text. -/
def Step.display : Step → String
  | .child i => ".children[" ++ Decimal.natural i ++ "]"
  | .onlyChild => ".children"
  | .props => ".props"

/-- A path within text. -/
def Path.display (p : Path) : String := "root" ++ String.join (p.map Step.display)

/-- The message of a malformed part. -/
def Malformed.message : Malformed → String
  | .notObject found => "expected object, got " ++ found.toText
  | .noType =>
    "component object has no 'type' field and no shorthand key " ++
      "(document, page, view, text, image, link)"
  | .badType found => "'type' must be a non-empty string, got " ++ found.toText
  | .badProps found => "'props' must be an object, got " ++ found.toText
  | .props mismatch => mismatch.message

/-- The code, the message and the further context of a font face that did not load. -/
def FontCause.code : FontCause → Report.Code
  | .unreachable _ | .status _ => .fontFetchError
  | _ => .fontLoadFailed

/-- The message of a font face that did not load. -/
def FontCause.message : FontCause → String
  | .unreachable message => message
  | .status code => "HTTP " ++ Decimal.natural code
  | .noFile name => "no font file found in stylesheet for " ++ Text.quoted name
  | .emptyFile => "font file is empty"
  | .emptyRegistration => "registered font is empty"

/-- The report of a font face that did not load. -/
def fontReport (face : Font.Face) (url : Option String) (cause : FontCause) : Report :=
  let r := (Report.of cause.code
    ("Failed to load font " ++ face.family ++ " (" ++ Decimal.natural face.weight ++ " " ++
      face.slant.name ++ "): " ++ cause.message))
    |>.note "family" (.text face.family)
    |>.note "weight" (.nat face.weight)
    |>.note "style" (.text face.slant.name)
  let r := match url with
    | some url => r.note "url" (.text url)
    | none => r
  match cause with
  | .status code => r.note "status" (.nat code)
  | .noFile _ => r.suggest "register the font explicitly or check the family name"
  | _ => r

/-- The report of a data URI that does not decode. -/
def dataUriReport (id detail : String) : Report :=
  (Report.of .invalidBase64Image ("Invalid base64 image: " ++ detail))
    |>.note "id" (.text id)
    |>.suggest "use the form data:image/<format>;base64,<payload>"

/-- The fault in words. -/
def report : Fault → Report
  | syntaxError line column =>
    (Report.of .invalidDocument "invalid JSON")
      |>.note "line" (.nat line)
      |>.note "column" (.nat column)
  | configuration => .of .invalidDocument "invalid configuration"
  | malformed path cause =>
    (Report.of .invalidDocument (path.display ++ ": " ++ cause.message))
      |>.note "path" (.text path.display)
  | unknownPageSize name =>
    (Report.of .invalidDocument ("unknown page size " ++ Text.quoted name))
      |>.note "size" (.text name)
      |>.suggest
        "use A3, A4, A5, A6, B4, B5, LETTER, LEGAL, TABLOID, EXECUTIVE or \x7bwidth, height\x7d"
  | badPageSize width height =>
    .of .invalidDocument
      ("page size must be positive, got " ++ Decimal.plain width ++ "x" ++ Decimal.plain height)
  | badMargin input token =>
    (Report.of .invalidDocument
      ("invalid margin value " ++ Text.quoted token ++ " in " ++ Text.quoted input))
      |>.note "margin" (.text input)
      |>.suggest "use numbers in points, e.g. \"10 20\" or \"10 20 30 40\""
  | marginCount input =>
    (Report.of .invalidDocument
      ("margin shorthand must have 1 to 4 values, got " ++ Text.quoted input))
      |>.note "margin" (.text input)
  | endlessComponent component last limit =>
    (Report.of .componentDepthExceeded
      ("Component <" ++ component ++ "> did not reach a primitive after " ++
        Decimal.natural (max limit 1) ++ " expansions"))
      |>.note "component" (.text component)
      |>.note "last" (.text last)
      |>.note "limit" (.nat limit)
      |>.suggest "check for a component that renders itself"
  | tooDeep tag limit =>
    (Report.of .componentDepthExceeded
      ("Tree nested deeper than " ++ Decimal.natural limit ++ " levels"))
      |>.note "tag" (.text tag)
      |>.note "limit" (.nat limit)
  | noImageSource =>
    (Report.of .invalidImageSource "Image node has no src")
      |>.suggest "set src to a URL, a data URI, bytes or a deferred source"
  | noPages =>
    (Report.of .noPages "Document has no pages")
      |>.suggest "add at least one page as a direct child of the document"
  | font face url cause => fontReport face url cause
  | unknownBytes id =>
    (Report.of .unknownImageFormat "Unrecognized image format in byte source")
      |>.note "id" (.text id)
      |>.suggest "supported formats: png, jpeg, webp, gif, svg"
  | unknownFormat url =>
    (Report.of .unknownImageFormat ("Unrecognized image format at " ++ url))
      |>.note "url" (.text url)
  | endlessSource id limit =>
    (Report.of .invalidImageSource
      ("Deferred image source nested more than " ++ Decimal.natural limit ++ " levels"))
      |>.note "id" (.text id)
  | localFile url =>
    (Report.of .localFileNotSupported ("Local image paths are not supported: " ++ url))
      |>.note "src" (.text url)
      |>.suggest "host the image at an http(s) URL or embed it as a data URI"
  | imageUnreachable url message =>
    (Report.of .imageLoadFailed ("Failed to load image " ++ url ++ ": " ++ message))
      |>.note "url" (.text url)
  | imageStatus url code =>
    (Report.of .imageFetchError
      ("Failed to fetch image " ++ url ++ ": HTTP " ++ Decimal.natural code))
      |>.note "url" (.text url)
      |>.note "status" (.nat code)
  | malformedDataUri id => dataUriReport id "malformed data URI"
  | undecodableDataUri id => dataUriReport id "undecodable"
  | emptyDataUri id => dataUriReport id "empty payload"
  | unknownSubtype id subtype =>
    (Report.of .unknownImageFormat ("Unsupported data URI image type image/" ++ subtype))
      |>.note "id" (.text id)
      |>.note "mime" (.text ("image/" ++ subtype))
  | unknownEngine name available =>
    (Report.of .unknownEngine ("Unknown engine " ++ Text.quoted name))
      |>.note "engine" (.text name)
      |>.note "available" (.list (available.map .text))
      |>.suggest "register the engine with Renderer::register_engine"
  | badUserAgent => .of .renderFailed "HTTP client error: builder error"
  | foreign message =>
    (Report.of .renderFailed ("Render failed: " ++ message))
      |>.note "cause" (.text message)
  | reported r => r

end Fault

end Galley
