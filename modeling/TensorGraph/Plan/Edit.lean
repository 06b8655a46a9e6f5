/-
# Edited plans

A plan is plain data and may be changed before it is bound.  A computation
answers for what an edited plan asks of it.
-/
import TensorGraph.Plan

namespace TensorGraph

/-- A change of one field of a plan. -/
inductive PlanEdit where
  | removePlacement (id : NodeId)
  | placeIn (id : NodeId) (buffer : Nat)
  | pushStep (id : NodeId)
  | popStep
  | pushParameter (id : NodeId)
  | pushOutput (id : NodeId)
  | pushOverwrite (node input : NodeId)
  | setElements (buffer elements : Nat)
  | setBytes (buffer bytes : Nat)
  | setNode (buffer : Nat) (id : NodeId)
  /-- The buffer counts as one that holds a literal. -/
  | makeConstant (buffer : Nat)
deriving DecidableEq

/-- The plan with one buffer changed. -/
def Plan.modifyBuffer (p : Plan) (i : Nat) (f : Buffer → Buffer) : Plan :=
  { p with buffers := p.buffers.modify i f }

/-- The plan after an edit. -/
def PlanEdit.apply (p : Plan) : PlanEdit → Plan
  | removePlacement id => { p with placements := p.placements.erase id }
  | placeIn id buffer =>
    { p with placements := p.placements.modify id fun place => { place with buffer } }
  | pushStep id => { p with steps := p.steps ++ [id] }
  | popStep => { p with steps := p.steps.dropLast }
  | pushParameter id => { p with parameters := p.parameters ++ [id] }
  | pushOutput id => { p with outputs := p.outputs ++ [id] }
  | pushOverwrite node input => { p with overwrites := p.overwrites ++ [⟨node, input⟩] }
  | setElements buffer elements => p.modifyBuffer buffer fun b => { b with elements }
  | setBytes buffer bytes => p.modifyBuffer buffer fun b => { b with bytes }
  | setNode buffer id => p.modifyBuffer buffer fun b => { b with node := id }
  | makeConstant buffer => p.modifyBuffer buffer fun b => { b with role := .constant }

end TensorGraph
