/-!
# Results of a run

The slices of a run stand in one list and their labels in another, in the order of the criteria.  A reader matches the
two by position, so the labels are either absent or as many as the slices: `labelsConsistent`.
-/
namespace SourceSlice

/-- The text of one slice, with the label of its row. -/
structure SliceResult where
  text : String
  label : Option String
deriving DecidableEq, Repr

structure BatchOutput where
  codeSlices : List String
  labels : List String
deriving DecidableEq, Repr

namespace BatchOutput

instance : EmptyCollection BatchOutput := ⟨⟨[], []⟩⟩
instance : Inhabited BatchOutput := ⟨∅⟩

/-- The output with one more slice; its label is kept when it has one. -/
def push (o : BatchOutput) (r : SliceResult) : BatchOutput :=
  ⟨o.codeSlices ++ [r.text], o.labels ++ r.label.toList⟩

def ofResults (rs : List SliceResult) : BatchOutput := ⟨rs.map (·.text), rs.filterMap (·.label)⟩

def pair : List String → List String → List SliceResult
  | [], _ => []
  | text :: texts, [] => ⟨text, none⟩ :: pair texts []
  | text :: texts, label :: labels => ⟨text, some label⟩ :: pair texts labels

/-- The slices of an output, each with the label at its position. -/
def results (o : BatchOutput) : List SliceResult := pair o.codeSlices o.labels

def size (o : BatchOutput) : Nat := o.codeSlices.length

def isEmpty (o : BatchOutput) : Bool := o.codeSlices.isEmpty

/-- Whether there are no labels, or as many as slices. -/
def labelsConsistent (o : BatchOutput) : Bool := o.labels.isEmpty || o.labels.length == o.codeSlices.length

@[simp] theorem ofResults_nil : ofResults [] = ∅ := rfl

/-- Adding a slice is the same as having had it last. -/
@[simp] theorem ofResults_concat (rs : List SliceResult) (r : SliceResult) :
    ofResults (rs ++ [r]) = (ofResults rs).push r := by
  cases h : r.label <;> simp [ofResults, push, h]

end BatchOutput
end SourceSlice
