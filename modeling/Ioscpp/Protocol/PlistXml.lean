import Ioscpp.Protocol.BinaryPlistDecode
import Ioscpp.Protocol.PlistText
import Ioscpp.Support.RealText

/-!
# XML property lists

`toXml` writes a value as elements.  `XmlParser` reads them back: its state is
the text from its position on, for it only moves forward.  Every step that
recurs or loops takes some text away, so the length of the text bounds the
recursion.
-/

namespace Ioscpp.Protocol.Plist

open Ioscpp.Support

/-! ## Writing -/

/-- The tag that ends an element. -/
def closeTag (name : String) : Bytes := ascii "</" ++ ascii name ++ ascii ">"

/-- An element around its body. -/
def element (name : String) (body : Bytes) : Bytes :=
  ascii "<" ++ ascii name ++ ascii ">" ++ body ++ closeTag name

mutual

/-- The text of a value. -/
def appendXml : Plist → Bytes
  | null => ascii "<null/>"
  | boolean value => if value then ascii "<true/>" else ascii "<false/>"
  | integer value => element "integer" (decimalInt value.toInt)
  | real bits => element "real" (RealText.format bits)
  | string text => element "string" (xmlEscape text)
  | data bytes => element "data" (base64Encode bytes)
  | date seconds => element "date" (formatDate seconds)
  | array items => element "array" (appendItems items)
  | dictionary entries => element "dict" (appendEntries entries)
  | uid index => element "integer" (decimal index.toNat)

/-- The items of an array. -/
def appendItems : List Plist → Bytes
  | [] => []
  | item :: rest => appendXml item ++ appendItems rest

/-- The keys and values of a dictionary. -/
def appendEntries : List (Bytes × Plist) → Bytes
  | [] => []
  | (key, item) :: rest =>
      element "key" (xmlEscape key) ++ appendXml item ++ appendEntries rest

end

/-- What stands before the value. -/
def kXmlHeader : Bytes :=
  ascii "<?xml version=\"1.0\" encoding=\"UTF-8\"?>\n" ++
    ascii "<!DOCTYPE plist PUBLIC \"-//Apple//DTD PLIST 1.0//EN\" " ++
    ascii "\"http://www.apple.com/DTDs/PropertyList-1.0.dtd\">\n" ++
    ascii "<plist version=\"1.0\">"

def toXml (value : Plist) : Bytes :=
  kXmlHeader ++ appendXml value ++ ascii "</plist>\n"

/-! ## Reading -/

/-- A step of the parser: it moves on in the text and returns a value, or it
fails. -/
abbrev XmlParser := StateT Bytes (Checked Error)

namespace XmlParser

def fail {α : Type} (message : String) : XmlParser α :=
  fun _ => .error (.error (protocolError message))

def outOfFuel {α : Type} : XmlParser α := fun _ => .error .outOfFuel

def skipSpace : XmlParser Unit := modify (·.dropWhile isSpace)

/-- The text after the next `pattern`, or the end when it is absent. -/
def after (pattern text : Bytes) : Bytes :=
  match cutAt pattern text with
  | some parts => parts.2
  | none => []

def skipTo (character : UInt8) : XmlParser Unit := modify (after [character])

/-- Skips declarations and comments. -/
def skipProlog : Nat → XmlParser Unit
  | 0 => outOfFuel
  | fuel + 1 => do
      skipSpace
      let text ← get
      if (ascii "<?").isPrefixOf text then do
        skipTo 0x3e
        skipProlog fuel
      else if (ascii "<!--").isPrefixOf text then do
        set (after (ascii "-->") text)
        skipProlog fuel
      else if (ascii "<!").isPrefixOf text then do
        skipTo 0x3e
        skipProlog fuel
      else return ()

/-- Skips white space, and then the token when it stands there. -/
def consume (token : Bytes) : XmlParser Bool := do
  skipSpace
  let text ← get
  if token.isPrefixOf text then do
    set (text.drop token.length)
    return true
  else return false

/-- Reads the body of an element and its close tag; a self-closing element has
an empty body. -/
def readBody (name : String) : XmlParser Bytes := do
  if ← consume (ascii "/>") then return []
  else if ← consume (ascii ">") then do
    let text ← get
    match cutAt (closeTag name) text with
    | none => fail "a plist element is not closed"
    | some (body, rest) => do
        set rest
        return body
  else fail "a plist element is malformed"

def bodyOf (name : String) : XmlParser Bytes := do
  if ← consume (ascii "<" ++ ascii name) then readBody name
  else fail "a plist element has the wrong name"

/-- Consumes the open tag of a container. -/
def openContainer (name message : String) : XmlParser Unit := do
  if ← consume (ascii "<" ++ ascii name) then do
    if ← consume (ascii ">") then return ()
    else fail message
  else fail message

/-- Parses an element of the kind that its text begins with, with `items` and
`entries` to parse the inside of a container. -/
def parseElement (items : XmlParser (List Plist))
    (entries : XmlParser (List (Bytes × Plist))) : XmlParser Plist := do
  let text ← get
  if (ascii "<integer").isPrefixOf text then do
    let body ← bodyOf "integer"
    return .integer (strtoll body)
  else if (ascii "<real").isPrefixOf text then do
    let body ← bodyOf "real"
    return .real (RealText.strtod body)
  else if (ascii "<string").isPrefixOf text then do
    let body ← bodyOf "string"
    return .string (xmlUnescape body)
  else if (ascii "<data").isPrefixOf text then do
    let body ← bodyOf "data"
    let decoded ← StateT.lift (base64Decode (body.filter (!isSpace ·)))
    return .data decoded
  else if (ascii "<date").isPrefixOf text then do
    let body ← bodyOf "date"
    let seconds ← StateT.lift (parseDate body)
    return .date seconds
  else if (ascii "<array").isPrefixOf text then do
    openContainer "array" "the array is malformed"
    let parsed ← items
    return .array parsed
  else if (ascii "<dict").isPrefixOf text then do
    openContainer "dict" "the dictionary is malformed"
    let parsed ← entries
    return .dictionary parsed
  else fail "the plist element is not known"

mutual

def parseValue : Nat → XmlParser Plist
  | 0 => outOfFuel
  | fuel + 1 => do
      skipSpace
      let text ← get
      if text.head? ≠ some 0x3c then
        fail "a plist value does not start with an element"
      else if ← consume (ascii "<true/>") then return .boolean true
      else if ← consume (ascii "<false/>") then return .boolean false
      else if ← consume (ascii "<null/>") then return .null
      else parseElement (parseItems fuel []) (parseEntries fuel [])

/-- The loop over the items of an array. -/
def parseItems : Nat → List Plist → XmlParser (List Plist)
  | 0, _ => outOfFuel
  | fuel + 1, items => do
      skipSpace
      if ← consume (ascii "</array>") then return items
      else do
        let item ← parseValue fuel
        parseItems fuel (items ++ [item])

/-- The loop over the entries of a dictionary; of equal keys the first stays. -/
def parseEntries : Nat → List (Bytes × Plist) →
    XmlParser (List (Bytes × Plist))
  | 0, _ => outOfFuel
  | fuel + 1, entries => do
      skipSpace
      if ← consume (ascii "</dict>") then return entries
      else do
        let key ← bodyOf "key"
        let item ← parseValue fuel
        parseEntries fuel (SortedMap.emplace (xmlUnescape key) item entries)

end

/-- Parses the value of the `<plist>` element. -/
def parse (fuel : Nat) : XmlParser Plist := do
  skipProlog fuel
  if ← consume (ascii "<plist") then do
    skipTo 0x3e
    parseValue fuel
  else fail "the plist has no <plist> element"

end XmlParser

def parseXml (text : Bytes) : Result Plist := do
  let (value, _) ← XmlParser.parse (text.length + 1) text
  .ok value

/-- Parses either form. -/
def parse (bytes : Bytes) : Result Plist :=
  if 8 ≤ bytes.length ∧ bytes.take 8 = kHeader then parseBinary bytes
  else parseXml bytes

end Ioscpp.Protocol.Plist
