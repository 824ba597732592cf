import ApiGateway.Condition.Basic
import ApiGateway.Http.Host
import ApiGateway.Http.Message

/-! Evaluating conditions: from left to right, no further than the result needs. -/

namespace ApiGateway

structure View where
  method : Method
  path : String
  host : Option String
  header : HeaderName → Option HeaderValue
  field : String → Option String

def Request.view (r : Request) : View where
  method := r.method
  path := r.uri.path
  host := r.host?
  header := r.headers.get?
  field := fun name => Dict.find? name r.fields

inductive EvaluationError where
  | missingHost
  | missingHeader (name : HeaderName)
  | unreadableHeader (name : HeaderName)
  | missingField (name : String)
deriving DecidableEq

def EvaluationError.message : EvaluationError → String
  | .missingHost => "request has no host"
  | .missingHeader name => "request has no header \"" ++ name.text ++ "\""
  | .unreadableHeader name => "header \"" ++ name.text ++ "\" is not valid UTF-8"
  | .missingField name => s!"request has no context field \"{name}\""

def Field.Answer : Field → Type
  | .method => Method
  | .path => String
  | .host => Option String
  | .header _ => Option HeaderValue
  | .context _ => Option String

def View.answer (view : View) : (field : Field) → field.Answer
  | .method => view.method
  | .path => view.path
  | .host => view.host
  | .header name => view.header name
  | .context name => view.field name

def Field.read : (field : Field) → field.Answer → Except EvaluationError String
  | .method, (m : Method) => .ok m.text
  | .path, (text : String) => .ok text
  | .host, (found : Option String) =>
    match found with
    | some authority => .ok (hostname authority)
    | none => .error .missingHost
  | .header name, (found : Option HeaderValue) =>
    match found with
    | none => .error (.missingHeader name)
    | some value =>
      match value.text? with
      | some s => .ok s
      | none => .error (.unreadableHeader name)
  | .context name, (found : Option String) =>
    match found with
    | some s => .ok s
    | none => .error (.missingField name)

def View.resolve (view : View) (field : Field) : Except EvaluationError String :=
  field.read (view.answer field)

/-! ## Lookups on record -/

/-- A lookup writes itself down; this is the one place where a log grows. -/
def View.ask (view : View) (field : Field) (log : List Field) : field.Answer × List Field :=
  (view.answer field, log ++ [field])

def View.resolveLogged (view : View) (field : Field) (log : List Field) :
    Except EvaluationError String × List Field :=
  let (answer, log) := view.ask field log
  (field.read answer, log)

def Field.agrees (field : Field) (actual expected : String) : Bool :=
  if field.ignoresCase then Text.eqIgnoreCase actual expected else actual == expected

namespace Condition

mutual

def evaluate (view : View) : Condition → Except EvaluationError Bool
  | .always => .ok true
  | .never => .ok false
  | .all items => evaluateAll view items
  | .any items => evaluateAny view items
  | .negate item => (evaluate view item).map (!·)
  | .equals field value => (view.resolve field).map (field.agrees · value)
  | .present field => .ok (view.resolve field).toBool
  | .method methods => .ok (methods.contains view.method)
  | .pathExact path => .ok (view.path == path)
  | .pathPrefix start => .ok (start.toList.isPrefixOf view.path.toList)

def evaluateAll (view : View) : List Condition → Except EvaluationError Bool
  | [] => .ok true
  | item :: rest =>
    match evaluate view item with
    | .ok true => evaluateAll view rest
    | decided => decided

def evaluateAny (view : View) : List Condition → Except EvaluationError Bool
  | [] => .ok false
  | item :: rest =>
    match evaluate view item with
    | .ok false => evaluateAny view rest
    | decided => decided

end

mutual

def observe (view : View) : Condition → List Field → Except EvaluationError Bool × List Field
  | .always, log => (.ok true, log)
  | .never, log => (.ok false, log)
  | .all items, log => observeAll view items log
  | .any items, log => observeAny view items log
  | .negate item, log =>
    let (result, log) := observe view item log
    (result.map (!·), log)
  | .equals field value, log =>
    let (resolved, log) := view.resolveLogged field log
    (resolved.map (field.agrees · value), log)
  | .present field, log =>
    let (resolved, log) := view.resolveLogged field log
    (.ok resolved.toBool, log)
  | .method methods, log =>
    let ((m : Method), log) := view.ask .method log
    (.ok (methods.contains m), log)
  | .pathExact path, log =>
    let ((actual : String), log) := view.ask .path log
    (.ok (actual == path), log)
  | .pathPrefix start, log =>
    let ((actual : String), log) := view.ask .path log
    (.ok (start.toList.isPrefixOf actual.toList), log)

def observeAll (view : View) :
    List Condition → List Field → Except EvaluationError Bool × List Field
  | [], log => (.ok true, log)
  | item :: rest, log =>
    match observe view item log with
    | (.ok true, log) => observeAll view rest log
    | decided => decided

def observeAny (view : View) :
    List Condition → List Field → Except EvaluationError Bool × List Field
  | [], log => (.ok false, log)
  | item :: rest, log =>
    match observe view item log with
    | (.ok false, log) => observeAny view rest log
    | decided => decided

end

mutual

theorem fst_observe (view : View) (c : Condition) (log : List Field) :
    (observe view c log).1 = evaluate view c := by
  cases c with
  | all items => exact fst_observeAll view items log
  | any items => exact fst_observeAny view items log
  | negate item => simp only [observe, evaluate, fst_observe view item log]
  | _ => rfl

theorem fst_observeAll (view : View) (items : List Condition) (log : List Field) :
    (observeAll view items log).1 = evaluateAll view items := by
  cases items with
  | nil => rfl
  | cons item rest =>
    have h := fst_observe view item log
    simp only [observeAll, evaluateAll, ← h]
    split
    next log' hitem => simp only [hitem, fst_observeAll view rest log']
    next hother =>
      split
      next htrue => exact (hother _ (Prod.ext htrue rfl)).elim
      · rfl

theorem fst_observeAny (view : View) (items : List Condition) (log : List Field) :
    (observeAny view items log).1 = evaluateAny view items := by
  cases items with
  | nil => rfl
  | cons item rest =>
    have h := fst_observe view item log
    simp only [observeAny, evaluateAny, ← h]
    split
    next log' hitem => simp only [hitem, fst_observeAny view rest log']
    next hother =>
      split
      next hfalse => exact (hother _ (Prod.ext hfalse rfl)).elim
      · rfl

end

end Condition
end ApiGateway
