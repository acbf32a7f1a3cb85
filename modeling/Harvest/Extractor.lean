import Harvest.Options

/-
  An extractor: one page and one set of options, asked again and again.

  The queries that were read are kept from one call to the next; nothing else is.
-/
namespace Harvest
open Markup

/-- A page with options, and the queries read so far. -/
structure Extractor where
  page : Element
  options : Options
  memo : Memo := []

namespace Extractor
variable [Css.Library]

/-- What a call comes to: a value or a fault, and what was reported. -/
structure Answer where
  result : Except Fault Value
  log : List Event

/-- The scope of a call: the page, unless another one is given. -/
def scopeOf (x : Extractor) (scope : Option Scope) : Scope := scope.getD (.of x.page)

/-- Works a schema through the page or a scope in it. -/
def call (x : Extractor) (schema : Value) (scope : Option Scope) : Answer × Extractor :=
  let (result, session) := ((x.options.engine.resolve schema (x.scopeOf scope)).run).run { memo := x.memo }
  (⟨result, session.log⟩, { x with memo := session.memo })

/-- The extractor as text: the names of its filters, in order. -/
def shown (x : Extractor) : String :=
  let names := (x.options.dialect.filters.map (·.1)).mergeSort fun a b => decide (a ≤ b)
  "Extractor(filters=[" ++ ", ".intercalate (names.map Text.quotedString) ++ "])"

end Extractor
end Harvest
