import Harvest.Config.Basic

/-
  Layers of a configuration, put on top of each other.

  A layer is a mapping that gives fields on their own or inside sections; where it gives a field both ways, the field on
  its own counts. What is no field, and a section that is no mapping, does not count.

    1. `Config.provided` is what a mapping gives for a field, and by which path.
    2. `Config.sectioned` writes a layer in sections.
    3. `Config.merge` puts a layer on top of another; mappings in both are put together entry by entry.
-/
namespace Harvest.Config

/-- The block of a section, if it is a mapping. -/
def block? (es : Entries) (sec : String) : Option Entries :=
  match Value.find? (.text sec) es with
  | some (.map b) => some b
  | _ => none

/-- What a mapping gives for a field, with the path to it. -/
def provided (es : Entries) (f : Field) : Option (List String × Value) :=
  match Value.find? (.text f.flat) es, f.place? with
  | some v, _ => some ([f.flat], v)
  | none, none => none
  | none, some (sec, name) =>
    ((block? es sec).bind (Value.find? (.text name))).map fun v => ([sec, name], v)

/-- The sections of a layer that are mappings. -/
def blocks (es : Entries) : Entries :=
  es.filter fun (k, v) =>
    match k, v with
    | .text s, .map _ => sections.contains s
    | _, _ => false

/-- A field put in its place. -/
def putField (out : Entries) (f : Field) (v : Value) : Entries :=
  match f.place? with
  | none => Value.put (.text f.flat) v out
  | some (sec, name) =>
    Value.put (.text sec) (.map (Value.put (.text name) v ((block? out sec).getD []))) out

/-- A layer in sections. -/
def sectioned (es : Entries) : Entries :=
  Field.all.foldl (fun out f =>
    match Value.find? (.text f.flat) es with
    | some v => putField out f v
    | none => out) (blocks es)

mutual

/-- A value on top of another one. -/
def mergeValue (current : Option Value) : Value → Value
  | .map l =>
    match current with
    | some (.map t) => .map (merge t l)
    | _ => .map l
  | v => v

/-- A layer on top of another one. -/
def merge (target : Entries) : List (Value × Value) → Entries
  | [] => target
  | (k, v) :: layer => merge (Value.put k (mergeValue (Value.find? k target) v) target) layer

end

/-- What holds where no layer says otherwise. -/
def defaults : Entries :=
  [(.text "app_name", .text "xselect"), (.text "environment", .text "dev"),
   (.text "logging", table [("level", .text "INFO"), ("format", .null)]),
   (.text "extraction", table [("parser", .text "lxml"), ("builtin_filters", .bool true)]),
   (.text "output", table [("indent", .int 2)])]

/-- Layers on top of each other, the lowest first. -/
def stack (layers : List Entries) : Entries := layers.foldl (fun out l => merge out (sectioned l)) (sectioned defaults)

end Harvest.Config
