import WorkflowEngine.Definition.FileName
import WorkflowEngine.Definition.Json
import WorkflowEngine.Definition.Validity
import WorkflowEngine.Definition.Yaml
import WorkflowEngine.Text.Utf8

/-!
# Definitions: workflows and configurations as texts and files

A workflow is read from a text in two steps: the text has to have the shape of a workflow, and the
workflow has to be valid. A file is JSON if its name ends so, and YAML otherwise.
-/

namespace WorkflowEngine.Definition

/-- What a JSON text describes, or an error. -/
def ofJsonText {α : Type} (message : String) (r : Except Json.Defect α) :
    Except DefinitionError α :=
  r.mapError fun defect => { messages := [message], cause := some (.json defect) }

/-- What a YAML text describes, or an error. -/
def ofYamlText {α : Type} (message : String) (r : Option α) : Except DefinitionError α :=
  match r with
  | some a => .ok a
  | none => .error { messages := [message], cause := some .yaml }

/-- The workflow that a JSON text describes. -/
def ofJson (text : String) : Except DefinitionError Workflow := do
  let w ← ofJsonText "Failed to parse workflow JSON" (Json.workflow text.toList)
  w.validate

/-- The workflow that a YAML text describes. -/
def ofYaml (text : String) : Except DefinitionError Workflow := do
  let w ← ofYamlText "Failed to parse workflow YAML" (Yaml.workflow text)
  w.validate

/-- The configuration that a YAML text describes. -/
def configOfYaml (text : String) : Except DefinitionError Config :=
  ofYamlText "Failed to parse engine config YAML" (Yaml.config text)

/-- The text of a file with a name; `none` stands for a file that is not there. -/
def fileText (message name : String) (content : Option (List UInt8)) :
    Except DefinitionError String :=
  match (content.filter fun _ => isFileName name).bind Text.ofUtf8? with
  | some text => .ok (String.ofList text)
  | none => .error { messages := [message ++ name], cause := some .file }

/-- The workflow that a file describes. -/
def load (name : String) (content : Option (List UInt8)) : Except DefinitionError Workflow := do
  let text ← fileText "Failed to read workflow file: " name content
  let w := if extension? name = some "json" then ofJson text else ofYaml text
  w.mapError (·.within ("Failed to parse workflow file: " ++ name))

/-- The configuration that a file describes. -/
def loadConfig (name : String) (content : Option (List UInt8)) : Except DefinitionError Config := do
  configOfYaml (← fileText "Failed to read engine config: " name content)

end WorkflowEngine.Definition
