import ApiGateway.Chain.Compile
import ApiGateway.Mount.Endpoint

/-! Mount tables: chains at their endpoints, in declared order. -/

namespace ApiGateway

structure Mount where
  endpoint : Endpoint
  chain : Chain

abbrev Table := List Mount

namespace Table

def ofChain (chain : Chain) (endpoints : List Endpoint) : Table :=
  endpoints.map fun endpoint => ⟨endpoint, chain⟩

def ofChains (pipelines : List Pipeline) (chains : List Chain) : Table :=
  (chains.zip pipelines).flatMap fun (chain, pipeline) => ofChain chain pipeline.endpoints

/-- The table of a configuration. Nothing is compiled unless the configuration is valid, and
nothing is mounted unless every pipeline compiles. -/
def build (registry : Registry) (config : Config) : Build Table :=
  match config.validate with
  | .error errors => .refuse (.invalid errors)
  | .ok _ =>
    (Build.each (fun _ pipeline => pipeline.compile registry config) 0 config.pipelines).andThen
      fun chains => .done (ofChains config.pipelines chains)

end Table
end ApiGateway
