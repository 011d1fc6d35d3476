import StreamWatch.Text.Blank

/-!
# Deployments

Where the program runs decides which settings file it reads besides the common one, and how it logs.
The variable that says so is read without regard to letter case and surrounding blanks.
-/

namespace StreamWatch

/-- The variables of a process, each name once. -/
abbrev Variables := List (String × String)

/-- The value of a variable. -/
def Variables.get? (vars : Variables) (name : String) : Option String :=
  (vars.find? fun (n, _) => n == name).map (·.2)

/-- Where the program runs. -/
inductive Deployment where
  | prod
  | staging
  | dev
deriving DecidableEq

/-- A deployment that is not known. -/
structure UnknownDeployment where
  name : String
deriving DecidableEq

/-- The problem in words. -/
def UnknownDeployment.message (u : UnknownDeployment) : String :=
  s!"`{u.name}` is not a supported environment, expected `prod`, `staging` or `dev`"

namespace Deployment

/-- The variable that names the deployment. -/
def variableName : String := "APP_ENVIRONMENT"

/-- The name of a deployment. -/
def name : Deployment → String
  | prod => "prod"
  | staging => "staging"
  | dev => "dev"

/-- Whether the program logs to files, as it does in production. -/
def logsToFiles : Deployment → Bool
  | prod | staging => true
  | dev => false

/-- Reads the name of a deployment. -/
def ofName (text : String) : Except UnknownDeployment Deployment :=
  match [prod, staging, dev].find? fun d => sameIgnoringCase d.name (trimmed text) with
  | some deployment => .ok deployment
  | none => .error ⟨text⟩

/-- The deployment that the variables name, production if they name none. -/
def ofVariables (vars : Variables) : Except UnknownDeployment Deployment :=
  match vars.get? variableName with
  | some text => ofName text
  | none => .ok prod

end Deployment

end StreamWatch
