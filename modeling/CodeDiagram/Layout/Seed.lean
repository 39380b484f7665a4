/-
# Seeds

The placement of a diagram depends on a seed that is a digest of what was asked for, so the same
request is always answered alike.
-/
import CodeDiagram.Diagram.Kind
import CodeDiagram.Layout.Digest

namespace CodeDiagram

/-- What is asked for as bytes: the source, the language and the diagram, with a zero between. -/
def requestBytes (source : String) (language : Language) (diagram : DiagramKind) : List UInt8 :=
  source.toUTF8.toList ++ 0 :: language.name.toUTF8.toList ++ 0 :: diagram.name.toUTF8.toList

/-- The seed of a request. -/
def layoutSeed (source : String) (language : Language) (diagram : DiagramKind) : UInt64 :=
  (Digest.digest (requestBytes source language diagram)).toSeed

end CodeDiagram
