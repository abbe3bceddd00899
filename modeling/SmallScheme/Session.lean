import SmallScheme.Outcome

/-!
# Sessions

A session evaluates forms one after another in a stack of scopes, all with one meter. The
scope on top is the current one; definitions go there. A scope can be put on top that is
enclosed by the current one, or that is another copy of it; taking the top away gives back
the scope below as it was left.

## Main definitions

* `Session`: a meter, the current scope and the scopes below it.
* `Session.perform`: one step of a session, with its answer.
-/

namespace SmallScheme

/-- A stack of scopes, the current one on top, and the meter of all evaluations. -/
structure Session where
  meter : Meter
  current : Scope
  below : List Scope

namespace Session

/-- A session that begins in a scope. -/
def start (limit : Limit) (scope : Scope) : Session :=
  ⟨.new limit, scope, []⟩

/-- How many scopes lie below the current one. -/
def level (session : Session) : Nat :=
  session.below.length

/-- Binds a name in the current scope. -/
def define (session : Session) (name : String) (value : Value) : Session :=
  { session with current := session.current.define name value }

/-- Puts a scope on top that the current one encloses. -/
def push (session : Session) : Session :=
  { session with current := session.current.enter, below := session.current :: session.below }

/-- Puts a second copy of the current scope on top. -/
def fork (session : Session) : Session :=
  { session with below := session.current :: session.below }

/-- Takes the current scope away, unless it is the last one. -/
def pop (session : Session) : Session :=
  match session.below with
  | [] => session
  | scope :: below => { session with current := scope, below := below }

/-- Evaluates a form in the current scope. -/
def eval (session : Session) (form : Form) : Except EvalError Value × Session :=
  let (result, meter) := form.evalMetered session.current session.meter
  (result, { session with meter := meter })

/-- Evaluates the first form of a source in the current scope. -/
def evalSource (session : Session) (source : String) : Reply × Session :=
  match Form.ofTokens? none (tokenize source) with
  | .error e => (.error e, session)
  | .ok none => (.ok none, session)
  | .ok (some form) =>
    let (result, session) := session.eval form
    (.ok (some result), session)

/-- What can be asked of a session. -/
inductive Step where
  | define (name : String) (value : Value)
  | get (name : String)
  | lookup (name : String)
  | eval (source : String)
  /-- Evaluates a source and binds a name to the value, if there is one. -/
  | defineEval (name source : String)
  | evalForm (form : Form)
  | push
  | fork
  | pop

/-- What a session answers. -/
inductive Answer where
  | defined
  | binding (value : Option Value)
  | reply (reply : Reply)
  | level (level : Nat)

/-- Takes one step. -/
def perform (session : Session) : Step → Answer × Session
  | .define name value => (.defined, session.define name value)
  | .get name => (.binding (session.current.get? name), session)
  | .lookup name => (.reply (.ok (some (session.current.lookup name))), session)
  | .eval source =>
    let (reply, session) := session.evalSource source
    (.reply reply, session)
  | .defineEval name source =>
    let (reply, session) := session.evalSource source
    match reply with
    | .ok (some (.ok value)) => (.reply reply, session.define name value)
    | _ => (.reply reply, session)
  | .evalForm form =>
    let (result, session) := session.eval form
    (.reply (.ok (some result)), session)
  | .push => (.level session.push.level, session.push)
  | .fork => (.level session.fork.level, session.fork)
  | .pop => (.level session.pop.level, session.pop)

/-- Takes steps one after another. -/
def performAll (session : Session) : List Step → List Answer
  | [] => []
  | step :: steps =>
    let (answer, session) := session.perform step
    answer :: session.performAll steps

end Session

end SmallScheme
