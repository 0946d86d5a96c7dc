import IvrFlow.Record.Basic
import IvrFlow.Step.Kind

/-!
Step headers: what every step carries, whatever its kind. A title that does not follow from the kind
is held until the header is normalized, which mends it.
-/

namespace IvrFlow

/-- The name of a step within its flow, its label and title, and what the editor keeps with it. -/
structure Header where
  name : String
  label : String
  title : String
  iface : Json
deriving DecidableEq

namespace Header

/-- The header that stored fields are read into. -/
def blank : Header := ⟨"", "", "", .obj []⟩

/-- The header of a new step. -/
def new (kind : StepKind) (name : String) : Header where
  name := name
  label := kind.defaultLabel
  title := kind.title
  iface := .obj []

/-- The header with the default label in the place of an empty one, with the title of the kind, and
with an object as its editor data. -/
def normalize (kind : StepKind) (header : Header) : Header where
  name := header.name
  label := if header.label = "" then kind.defaultLabel else header.label
  title := kind.title
  iface := if header.iface.isObject then header.iface else .obj []

/-- The stored form of a header. -/
def fields : List (Field Header) :=
  [.of "iface" [] .any (·.iface) ({ · with iface := · }),
   .of "label" [] .text (·.label) ({ · with label := · }),
   .of "name" [] .text (·.name) ({ · with name := · }),
   .of "title" [] .text (·.title) ({ · with title := · })]

/-- Adds the entries of a header to the own entries of a step. -/
def addTo (header : Header) (own : Fields) : Fields :=
  (((own.insert "iface" header.iface).insert "label" (.str header.label)).insert
    "name" (.str header.name)).insert "title" (.str header.title)

end Header

end IvrFlow
