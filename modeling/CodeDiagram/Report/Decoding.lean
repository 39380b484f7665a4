/-
# Metadata from JSON

Reads back what `Metadata.toJson` writes.  Lines have at most thirty-two bits.
-/
import CodeDiagram.Graph.Metadata
import CodeDiagram.Json.Record
import CodeDiagram.Number.Natural

namespace CodeDiagram

open Json

/-- The bound of lines. -/
def lineBound : Nat := UInt32.size

/-- A line. -/
def asLine? : Json → Option Nat := asNat? lineBound

/-- A function. -/
def FunctionInfo.ofJson? (v : Json) : Option FunctionInfo := do
  let r ← v.record? 5 false
  return {
    name := ← r.required 0 "name" asString?
    line := ← r.required 1 "line" asLine?
    parameters := ← r.required 2 "parameters" (asList? asString?)
    returnType := ← r.optional 3 "return_type" asString?
    modifiers := ← r.defaulted 4 "modifiers" [] (asList? asString?) }

/-- A type that another builds on. -/
def Supertype.ofJson? (v : Json) : Option Supertype := do
  let r ← v.record? 2 false
  return {
    name := ← r.required 0 "name" asString?
    relation := ← r.required 1 "relation" (asWord? Relation.ofName?) }

/-- A type. -/
def ClassInfo.ofJson? (v : Json) : Option ClassInfo := do
  let r ← v.record? 3 false
  return {
    name := ← r.required 0 "name" asString?
    line := ← r.required 1 "line" asLine?
    supertypes := ← r.required 2 "supertypes" (asList? Supertype.ofJson?) }

/-- A variable. -/
def VariableInfo.ofJson? (v : Json) : Option VariableInfo := do
  let r ← v.record? 3 false
  return {
    name := ← r.required 0 "name" asString?
    line := ← r.required 1 "line" asLine?
    binding := ← r.required 2 "binding" (asWord? Binding.ofName?) }

/-- What sets an import apart. -/
def ImportFlags.ofJson? (v : Json) : Option ImportFlags := do
  let r ← v.record? 3 false
  return {
    isStatic := ← r.required 0 "is_static" asBool?
    isWildcard := ← r.required 1 "is_wildcard" asBool?
    isFrom := ← r.required 2 "is_from" asBool? }

/-- An import. -/
def ImportInfo.ofJson? (v : Json) : Option ImportInfo := do
  let r ← v.record? 4 false
  return {
    path := ← r.required 0 "path" asString?
    renamedTo := ← r.optional 1 "alias" asString?
    line := ← r.required 2 "line" asLine?
    flags := ← r.required 3 "flags" ImportFlags.ofJson? }

/-- All metadata. -/
def Metadata.ofJson? (v : Json) : Option Metadata := do
  let r ← v.record? 7 false
  return {
    functions := ← r.required 0 "functions" (asList? FunctionInfo.ofJson?)
    classes := ← r.required 1 "classes" (asList? ClassInfo.ofJson?)
    bindings := ← r.required 2 "variables" (asList? VariableInfo.ofJson?)
    imports := ← r.required 3 "imports" (asList? ImportInfo.ofJson?)
    parseError := ← r.optional 4 "parse_error" asString?
    totalNodes := ← r.required 5 "total_nodes" (asNat? Number.countBound)
    maxDepthReached := ← r.required 6 "max_depth_reached" asBool? }

end CodeDiagram
