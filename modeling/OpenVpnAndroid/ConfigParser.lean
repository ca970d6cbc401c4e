/-
  OpenVpnAndroid/ConfigParser.lean
  ================================
  **`ConfigParser`: from a text to a map of options.**

  `parseConfig` reads line by line.  The loop of `checkinlinefile`, which reads
  on up to an end tag, is the second state of the same loop here, so that both
  recurse over one list of lines.

  A `HashMap` is the list of its entries in the order in which their keys were
  put in; where the code iterates over one, `HashOrder` says in which order.
-/
import OpenVpnAndroid.VpnProfile

namespace OpenVpnAndroid

/-! ### Option maps -/

/-- Option names with their lines; a line is the name and the arguments. -/
abbrev OptionMap := List (Text × List (List Text))

namespace OptionMap

def containsKey (options : OptionMap) (name : Text) : Bool := options.any fun e => e.1 == name

def get (options : OptionMap) (name : Text) : Option (List (List Text)) :=
  (options.find? fun e => e.1 == name).map Prod.snd

def remove (options : OptionMap) (name : Text) : OptionMap := options.filter fun e => e.1 != name

def put (options : OptionMap) (name : Text) (lines : List (List Text)) : OptionMap :=
  if containsKey options name then
    options.map fun e => if e.1 == name then (name, lines) else e
  else options ++ [(name, lines)]

/-- `options.get(name).add(args)`, after an empty vector has been put there if
    there was none. -/
def add (options : OptionMap) (name : Text) (args : List Text) : OptionMap :=
  put options name ((get options name).getD [] ++ [args])

end OptionMap

/-- The order in which a `HashMap` with the given keys is iterated. -/
structure HashOrder where
  order : List Text → List Text
  order_perm : ∀ keys, (order keys).Perm keys
  order_congr : ∀ {keys keys'}, keys.Perm keys' → order keys = order keys'

/-- `options.values()`, as far as the keys say in which order. -/
def HashOrder.entries (h : HashOrder) (options : OptionMap) : OptionMap :=
  (h.order (options.map Prod.fst)).filterMap fun name =>
    (OptionMap.get options name).map fun lines => (name, lines)

/-! ### `parseConfig` -/

structure ConfigParser where
  options : OptionMap
  metadata : List (Text × List Text)
deriving DecidableEq, Repr

namespace VpnProfile

/-- `getEmbeddedContent` -/
def getEmbeddedContent (data : Text) : Text := (afterFirst INLINE_TAG data).getD data

def isEmbedded (data : Text) : Bool :=
  INLINE_TAG.isPrefixOf data || DISPLAYNAME_TAG.isPrefixOf data

/-- Put inline data inline and other data as normal escaped filename. -/
def insertFileData (cfgentry : Text) : Option Text → Text
  | none => cfgentry ++ (" file missing in config profile\n" : Text)
  | some filedata =>
      if isEmbedded filedata then
        ("<" : Text) ++ cfgentry ++ (">\n" : Text) ++ getEmbeddedContent filedata
          ++ ("\n</" : Text) ++ cfgentry ++ (">\n" : Text)
      else cfgentry ++ (" " : Text) ++ openVpnEscape filedata ++ ("\n" : Text)

end VpnProfile

namespace ConfigParser

open VpnProfile (INLINE_TAG)

def init : ConfigParser := ⟨[], []⟩

def zipArchive : Stop :=
  .thrown (.configParseError
    ("Input looks like a ZIP Archive. Import is only possible for OpenVPN config files (.ovpn/.conf)"
      : Text))

def noEndtag (argname : Text) : Stop :=
  .thrown (.configParseError
    (("No endtag </" : Text) ++ argname ++ ("> for starttag <" : Text) ++ argname
      ++ ("> found" : Text)))

def optionAlias (name : Text) : Text :=
  if name = ("server-poll-timeout" : Text) then "timeout-connect" else name

def META_TAG : Text := "# OVPN_ACCESS_SERVER_"

/-- `parsemeta` and the `put` after it, for a line that starts with the tag. -/
def putMeta (p : ConfigParser) (line : Text) : ConfigParser :=
  let (name, value) := split2 (· == '=') (line.drop META_TAG.length)
  let metaarg := name :: value.toList
  { p with metadata := p.metadata.filter (fun e => e.1 != name) ++ [(name, metaarg)] }

/-- `args.get(0).startsWith("--")`: the dashes are cut off. -/
def stripDashes (name : Text) : Text :=
  if ("--" : Text).isPrefixOf name then name.drop 2 else name

/-- The `foo` of a line `<foo>`. -/
def inlineName (arg0 : Text) : Option Text :=
  let arg0 := trim arg0
  if ("<" : Text).isPrefixOf arg0 && (">" : Text).isSuffixOf arg0 then some (arg0.drop 1).dropLast
  else none

def endtag (argname : Text) : Text := ("</" : Text) ++ argname ++ (">" : Text)

def addOption (p : ConfigParser) (args : List Text) : ConfigParser :=
  { p with options := OptionMap.add p.options (optionAlias (args.headD [])) args }

/-- What the loops are reading: options, or the inline file of an option. -/
inductive Reading where
  | options
  | inlineFile (argname inlinefile : Text)
deriving DecidableEq, Repr

/-- An option line with at least one parameter. -/
def readOption (p : ConfigParser) (name : Text) (rest : List Text) : Reading × ConfigParser :=
  let name := stripDashes name
  match inlineName name with
  | some argname => (.inlineFile argname INLINE_TAG, p)
  | none => (.options, p.addOption (name :: rest))

/-- One line of the text. -/
def readConfigLine (reading : Reading) (p : ConfigParser) (line : Text) :
    Java (Reading × ConfigParser) :=
  match reading with
  | .inlineFile argname inlinefile =>
      if trim line = endtag argname then
        let inlinefile := if ("\n" : Text).isSuffixOf inlinefile then inlinefile.dropLast else inlinefile
        .ok (.options, p.addOption [argname, inlinefile])
      else .ok (.inlineFile argname (inlinefile ++ line ++ ("\n" : Text)), p)
  | .options =>
      if META_TAG.isPrefixOf line then .ok (.options, p.putMeta line)
      else
        match parseline line with
        | .error e => .error e
        | .ok [] => .ok (.options, p)
        | .ok (name :: rest) => .ok (p.readOption name rest)

/-- The rest of the text. -/
def readConfig (reading : Reading) (p : ConfigParser) : List Text → Java ConfigParser
  | [] =>
      match reading with
      | .options => .ok p
      | .inlineFile argname _ => .error (noEndtag argname)
  | line :: lines =>
      match readConfigLine reading p line with
      | .error e => .error e
      | .ok (reading, p) => readConfig reading p lines

def isZip (line : Text) : Bool :=
  (['P', 'K', '\x03', '\x04'] : Text).isPrefixOf line
    || (['P', 'K', '\x07', '\x00', '8'] : Text).isPrefixOf line

/-- A byte order mark before the first line. -/
def stripMark : Text → Text
  | '\ufeff' :: line => line
  | line => line

/-- `new ConfigParser()` and `parseConfig`. -/
def parseConfig (reader : Text) : Java ConfigParser :=
  match readLines reader with
  | [] => .ok init
  | line :: lines =>
      if isZip line then .error zipArchive else readConfig .options init (stripMark line :: lines)

end ConfigParser

end OpenVpnAndroid
