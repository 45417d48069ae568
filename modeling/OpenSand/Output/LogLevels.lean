import OpenSand.Lib.Paths
import OpenSand.Lib.SortedMap
import Mathlib.Data.Char
import Mathlib.Data.List.Lex

/-!
The logs of the output library and their display levels (`Output`).

The names of the logs are paths in a tree of sections and units, a unit having at most one
log. The desired levels are in another tree. Both trees are seen as partial functions of the
paths: a node without level of the desired levels is as good as no node.
-/

namespace OpenSand

inductive LogLevel where
  | critical | error | warning | notice | info | debug | event
deriving DecidableEq, Repr

abbrev Part := List Char

abbrev Path := List Part

/-! ### Names -/

def isSpace (c : Char) : Bool :=
  c = ' ' || c = '\t' || c = '\n' || c.toNat = 0x0B || c.toNat = 0x0C || c = '\r'

def normalizeName (name : List Char) : List Char :=
  name.map fun c => if isSpace c then '_' else c.toLower

/-- The parts of a name; an empty part at its end is left out. -/
def splitName (name : List Char) : Path :=
  let parts := name.splitOn '.'
  if parts.getLast? = some [] then parts.dropLast else parts

def nameParts (identifier : List Char) : Path := splitName (normalizeName identifier)

/-! ### The trees -/

inductive OutputItem where
  | outputSection
  | outputUnit (log : Option LogLevel)
deriving DecidableEq

abbrev OutputItems := Path → Option OutputItem

abbrev DesiredLogLevels := Path → Option LogLevel

structure Output where
  desiredLogLevels : DesiredLogLevels
  items : OutputItems

/-- The display level of a log. -/
def Output.displayLevel (output : Output) (path : Path) : Option LogLevel :=
  match output.items path with
  | some (.outputUnit log) => log
  | _ => none

/-- Find the sections of a path, or create them; a unit there is an error. -/
def getOrCreateSection (items : OutputItems) (path : Path) : Path → Bool × OutputItems
  | [] => (true, items)
  | name :: names =>
      let path := path ++ [name]
      match items path with
      | none => getOrCreateSection (Function.update items path (some .outputSection)) path names
      | some .outputSection => getOrCreateSection items path names
      | some (.outputUnit _) => (false, items)

/-- Find a unit, or create it; a section there is an error. -/
def findUnit (items : OutputItems) (path : Path) : Bool × OutputItems :=
  match items path with
  | none => (true, Function.update items path (some (.outputUnit none)))
  | some (.outputUnit _) => (true, items)
  | some .outputSection => (false, items)

/-- Each node of a path gets the level of the node above, unless it has one. -/
def inheritLevel (tree : DesiredLogLevels) (path : Path) (level : LogLevel) :
    Path → DesiredLogLevels × LogLevel
  | [] => (tree, level)
  | part :: parts =>
      let path := path ++ [part]
      let level := (tree path).getD level
      inheritLevel (Function.update tree path (some level)) path level parts

namespace Output

/-! ### Registration -/

/-- Register a log; the flag tells that it is there. The last part of an empty name is not
defined. -/
def registerLog (output : Output) (displayLevel : LogLevel) (identifier : List Char) :
    Option (Bool × Output) :=
  let parts := nameParts identifier
  let level := (output.desiredLogLevels []).getD displayLevel
  let (desiredLogLevels, logLevel) := inheritLevel output.desiredLogLevels [] level parts
  if parts = [] then none
  else
    let (found, items) := getOrCreateSection output.items [] parts.dropLast
    if !found then some (false, { desiredLogLevels, items })
    else
      let (found, items) := findUnit items parts
      if !found then some (false, { desiredLogLevels, items })
      else
        -- the log of the unit, or a new one, gets the level
        let items := Function.update items parts (some (.outputUnit (some logLevel)))
        some (true, { desiredLogLevels, items })

/-- What is registered: the default display level of a log and its name. -/
structure Registration where
  displayLevel : LogLevel
  identifier : List Char

def Registration.parts (registration : Registration) : Path :=
  nameParts registration.identifier

def register (output : Output) (registration : Registration) : Option Output :=
  (output.registerLog registration.displayLevel registration.identifier).map Prod.snd

def empty : Output where
  desiredLogLevels _ := none
  items path := if path = [] then some .outputSection else none

/-- The logs that the output registers itself. -/
def ownLogs : List Registration :=
  [⟨.warning, "output".toList⟩, ⟨.warning, "default".toList⟩]

/-! ### Configuration -/

/-- The item a path leads to, from the one at its beginning. -/
def findItem (items : OutputItems) (path : Path) (item : Option OutputItem) :
    Path → Option OutputItem
  | [] => item
  | name :: names =>
      let item := if item = some .outputSection then items (path ++ [name]) else none
      findItem items (path ++ [name]) item names

/-- Set the levels of all logs under an item. -/
def setLogLevel (items : OutputItems) (path : Path) (level : LogLevel) : OutputItems := fun node =>
  if path <+: node then
    (items node).map fun
      | .outputSection => .outputSection
      | .outputUnit log => .outputUnit (log.map fun _ => level)
  else items node

def setLevel (output : Output) (logLevel : List Char × LogLevel) : Output :=
  let parts := nameParts logLevel.1
  let item := findItem output.items [] (output.items []) parts
  { desiredLogLevels := Function.update output.desiredLogLevels parts (some logLevel.2)
    items := if item.isSome then setLogLevel output.items parts logLevel.2 else output.items }

/-- Set the levels of the configuration, in the order of their paths. -/
def setLevels (output : Output) (levels : SortedMap (List Char) LogLevel) : Output :=
  levels.entries.foldl setLevel output

end Output

end OpenSand
