import ApiGateway.Action.Basic
import ApiGateway.Condition.Basic

/-! Chains: the compiled form of a pipeline, a handler with its condition for every processor. -/

namespace ApiGateway

structure Step where
  action : String
  condition : Condition
  handler : Handler

structure Chain where
  pipeline : String
  steps : List Step

def Step.text (step : Step) : String :=
  "Step \x7b action: " ++ Text.quoted step.action ++ ", condition: " ++ step.condition.text ++
    " \x7d"

def Chain.text (chain : Chain) : String :=
  "CompiledChain \x7b pipeline: " ++ Text.quoted chain.pipeline ++ ", steps: [" ++
    ", ".intercalate (chain.steps.map Step.text) ++ "] \x7d"

end ApiGateway
