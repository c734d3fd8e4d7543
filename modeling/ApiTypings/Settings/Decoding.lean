import ApiTypings.Settings.Basic
import ApiTypings.Settings.Document

/-!
# From definitions to a configuration

Unknown keys are ignored, and missing ones have their defaults, except that every target
needs a language and a path. A value in the wrong place makes the whole file invalid. What
holds several settings can also be written as a list in their fixed order.
-/
namespace ApiTypings.Settings

def Item.string? : Item → Option String
  | .string s => some s
  | _ => none

def Item.boolean? : Item → Option Bool
  | .boolean b => some b
  | _ => none

def Item.natural? : Item → Option Nat
  | .integer n => if 0 ≤ n then some n.toNat else none
  | _ => none

/-- The settings of an item, each found by its position or its key. A date has no settings
of its own. -/
def Item.settings? : Item → Option (Nat → String → Option Item)
  | .table _ es => some (fun _ key => es.lookup key)
  | .list items => some (fun i _ => items[i]?)
  | .tables ts => some (fun i _ => (ts[i]?).map (Item.table .header))
  | .date => some (fun _ _ => none)
  | _ => none

/-- A setting that may be missing. -/
def settingOr {α : Type} (decode : Item → Option α) (default : α) (item : Option Item) :
    Option α :=
  match item with
  | none => some default
  | some i => decode i

def Item.isEmptyCollection : Item → Bool
  | .list items => items.isEmpty
  | .tables ts => ts.isEmpty
  | .table _ es => es.isEmpty
  | _ => false

/-- A language is named by a string, or by the key of a table with an empty value. -/
def Item.language? : Item → Option Language
  | .string s => Language.ofName? s
  | .table kind ((key, item) :: es) =>
    if item.isEmptyCollection && (kind != .inline || es.isEmpty) then Language.ofName? key
    else none
  | _ => none

def decodeSource (item : Item) : Option Source := do
  let get ← item.settings?
  let url ← settingOr Item.string? Page.pageAddress (get 0 "url")
  let cache ← settingOr (fun i => i.string?.map some) none (get 1 "cache")
  pure ⟨url, cache⟩

/-- The layout of an output, and the name of its module. -/
def decodePrinter (item : Item) : Option (Printing.Layout × Option String) := do
  let get ← item.settings?
  let width ← settingOr Item.natural? 72 (get 0 "comment_line_max_length")
  let indent ← settingOr Item.string? "  " (get 1 "indent")
  let module ← settingOr (fun i => i.string?.map some) none (get 2 "module")
  pure (⟨width, indent⟩, module)

def decodeTarget (item : Item) : Option Target := do
  let get ← item.settings?
  let language ← (get 0 "lang").bind Item.language?
  let path ← (get 1 "path").bind Item.string?
  let checksSyntax ← settingOr Item.boolean? false (get 2 "check_syntax")
  let (layout, module) ← settingOr decodePrinter ({}, none) (get 3 "printer")
  pure ⟨language, path, checksSyntax, layout, module⟩

def decodeTargets : Item → Option (List Target)
  | .list items => items.mapM decodeTarget
  | .tables ts => ts.mapM (fun t => decodeTarget (.table .header t))
  | _ => none

def decodeConfiguration (es : Entries) : Option Configuration := do
  let source ← settingOr decodeSource {} (es.lookup "source")
  let targets ← settingOr decodeTargets stockTargets (es.lookup "targets")
  pure ⟨source, targets⟩

/-- The configuration of a file, or `none` if the file is invalid. -/
def Configuration.ofText? (text : String) : Option Configuration :=
  (readEntries text).bind decodeConfiguration

end ApiTypings.Settings
