import CasePlan.CommandLine.Grammar
import CasePlan.CommandLine.Script
import CasePlan.Inspection.Data
import CasePlan.Logic.Payload
import CasePlan.Template.Basic

/-!
# The program

`program` turns a command line into a script.  Its commands compile descriptions, inspect documents
and extract descriptions from them, show templates, and deploy cases.

A mistake in the command line ends the program with code 2, anything else that the program reports
with code 1.
-/

namespace CasePlan.CommandLine

/-- What the program finds around it. -/
structure Surroundings where
  /-- The environment. -/
  environment : Environment := []
  /-- The templates. -/
  library : Library := []
  /-- What sets a saved configuration apart. -/
  stamp : Stamp := ⟨[], []⟩

/-- The values of a command's parameters. -/
structure Arguments where
  /-- The values under their keys. -/
  values : List (Text × Text)

namespace Arguments

/-- A value that may be absent. -/
def get? (a : Arguments) (key : Text) : Option Text := Table.get? key a.values

/-- A value, or a default. -/
def getD (a : Arguments) (key default : Text) : Text := (a.get? key).getD default

/-- A value that counts only if it is not empty. -/
def filled? (a : Arguments) (key : Text) : Option Text := (a.get? key).filter (!·.isEmpty)

/-- Whether a switch is on. -/
def isOn (a : Arguments) (key : Text) : Bool := a.get? key == some switchedOn

end Arguments

/-! ## Files -/

/-- The text of a file, in which every line end is a line feed. -/
def universalLines : Text → Text
  | [] => []
  | [c] => [if c = .carriageReturn then .lineFeed else c]
  | c :: d :: rest =>
    if c = .carriageReturn then
      if d = .lineFeed then .lineFeed :: universalLines rest
      else .lineFeed :: universalLines (d :: rest)
    else c :: universalLines (d :: rest)

/-- Reads a text from a file. -/
def readText (path : Text) (next : Text → Script) : Script :=
  .read path fun
    | .error fault => .abort ("Error reading input file: " ++ fault.message path)
    | .ok bytes =>
      match Utf8.decode? bytes with
      | .error e => .stop (.notUtf8 e)
      | .ok t => next (universalLines t)

/-- Writes a text to a file if one is named, and prints it otherwise. -/
def deliver (content : Text) (path? : Option Text) : Script :=
  match path? with
  | none => .printLine content (.finish 0)
  | some path =>
    .write path (content.flatMap Utf8.encodeCode) fun
      | some fault => .stop (.file path fault)
      | none => .notify ("Written to " ++ path ++ "\n") (.finish 0)

/-! ## Commands -/

/-- The name of the program. -/
def programName : Text := "cmmn-compiler"

/-- The version of the program. -/
def version : Text := "0.1.0"

/-- A command of the program. -/
def command (name : Text) (parameters : List Parameter) : Command :=
  { name := programName ++ " " ++ name, parameters }

/-- The name of the case. -/
def caseName : Parameter :=
  { key := "case-name", shape := .option ["--case-name", "-n"], isRequired := true }

/-- The identifier of the application. -/
def appId : Parameter :=
  { key := "app-id", shape := .option ["--app-id", "-a"], isRequired := true }

/-- The slug of the application. -/
def appSlug : Parameter := { key := "app-slug", shape := .option ["--app-slug"] }

/-- Where the result is written to. -/
def output : Parameter := { key := "output", shape := .option ["--output", "-o"] }

/-- How much is logged. -/
def verbose : Parameter := { key := "verbose", shape := .switch ["--verbose"] ["--quiet"] }

/-- A file that has to exist. -/
def inputFile (placeholder : Text) (isRequired : Bool) : Parameter :=
  { key := "file", shape := .argument placeholder, isRequired, rule := .existingPath }

/-- The command that compiles. -/
def compileCommand : Command :=
  command "compile"
    [inputFile "INPUT_FILE" false, { key := "template", shape := .option ["--template", "-t"] },
      caseName, appId, appSlug,
      { key := "layout"
        shape := .option ["--layout"]
        rule := .oneOf (LayoutMode.all.map LayoutMode.word) },
      output, { key := "compact", shape := .switch ["--compact"] [] }, verbose]

/-- The command that inspects. -/
def inspectCommand : Command :=
  command "inspect"
    [inputFile "CMMN_FILE" true, { key := "json", shape := .switch ["--json-output"] [] }]

/-- The command that extracts. -/
def extractCommand : Command := command "extract" [inputFile "CMMN_FILE" true, output]

/-- The command that shows templates. -/
def templatesCommand : Command :=
  command "templates" [{ key := "id", shape := .argument "TEMPLATE_ID" }]

/-- The command that deploys. -/
def deployCommand : Command :=
  command "deploy"
    [inputFile "INPUT_FILE" true, caseName,
      { key := "case-slug", shape := .option ["--case-slug"] }, appId,
      { key := "app-name", shape := .option ["--app-name"], isRequired := true }, appSlug,
      { key := "base-url", shape := .option ["--base-url"] },
      { key := "token", shape := .option ["--token"] }, verbose]

/-- The case that a command is about. -/
def caseOf (a : Arguments) : Except CompileError Case :=
  Case.make (.str (a.getD "case-name" []))
    (Application.check ⟨a.getD "app-id" [], a.getD "app-slug" "app"⟩)

/-- Goes on with what was compiled.  A rejection is reported, anything else stops the program. -/
def onCompiled (result : Except CompileError Compiled) (next : Compiled → Script) : Script :=
  match result with
  | .ok compiled => next compiled
  | .error (.input (.rejected r)) => .abort ("Validation error: " ++ r.message)
  | .error e => .stop (.compile e)

/-- Compiles a description. -/
def compileScript (s : Surroundings) (a : Arguments) : Script :=
  let config : Config :=
    { layoutMode := ((a.get? "layout").bind LayoutMode.ofWord?).getD .alternating
      prettyPrint := !a.isOn "compact" }
  let finish (description : Except ParseError Logic) : Script :=
    onCompiled (compile config (caseOf a) description) fun compiled =>
      deliver compiled.document (a.filled? "output")
  match a.filled? "template", a.filled? "file" with
  | some id, _ =>
    match s.library.find? id with
    | some t => finish t.logic
    | none => .abort ("Error: " ++ s.library.unknownMessage id)
  | none, some path => readText path fun t => finish (Logic.parseText t)
  | none, none => .abort "Error: provide an INPUT_FILE or --template"

/-- The report of an inspection, line by line. -/
def reportLines (path : Text) (r : Report) : List Text :=
  let orNone (value : Option Text) : Text := value.getD "None"
  let slugs := Text.join ", " (r.tasks.map (·.slug))
  let general : List Text :=
    ["File: " ++ path, "Valid: " ++ (Json.bool r.isValid).shown,
      "Case: " ++ orNone r.caseName ++ " (application " ++ orNone r.applicationId ++ ")",
      "Tasks: " ++ (if slugs.isEmpty then "-" else slugs : Text)]
  general ++ r.errors.map (fun e => ("ERROR: " ++ e : Text)) ++
    r.warnings.map (fun w => ("WARNING: " ++ w.text : Text)) ++
    r.suggestions.map (fun t => ("SUGGESTION: " ++ t : Text))

/-- Inspects a document. -/
def inspectScript (a : Arguments) : Script :=
  let path := a.getD "file" []
  readText path fun document =>
    match CasePlan.inspect document with
    | .error e => .stop (.inspection e)
    | .ok report =>
      let lines : List Text :=
        if a.isOn "json" then [report.toJson.writeIndented] else reportLines path report
      .printLines lines (.finish (if report.isValid then 0 else 1))

/-- Extracts a description from a document. -/
def extractScript (a : Arguments) : Script :=
  readText (a.getD "file" []) fun document =>
    match CasePlan.extract document with
    | .error (.structural errors) =>
      .notify (("Error: document is not a valid CMMN case\n" : Text) ++
        errors.flatMap fun e => ("  - " ++ e ++ "\n" : Text)) (.finish 1)
    | .error (.inspection e) => .stop (.inspection e)
    | .error (.description e) => .stop (.description e)
    | .ok logic => deliver logic.toJson.writeIndented (a.filled? "output")

/-- Lists templates, or shows one. -/
def templatesScript (s : Surroundings) (a : Arguments) : Script :=
  match a.get? "id" with
  | none =>
    let lines := s.library.templates.map fun t =>
      (t.id ++ ": " ++ t.name ++ " - " ++ t.description : Text)
    .printLines lines (.finish 0)
  | some id =>
    match s.library.find? id with
    | some t => .printLine t.toJson.writeIndented (.finish 0)
    | none => .abort ("Error: " ++ s.library.unknownMessage id)

/-- The settings of a deployment: those of the environment, and over them those of the command
line. -/
def deploymentConfig (s : Surroundings) (a : Arguments) : Except Stop DeploymentConfig :=
  match DeploymentConfig.ofEnvironment s.environment with
  | .error e => .error (.setting e)
  | .ok (.bad issues) => .error (.shape issues)
  | .ok (.good config) =>
    let baseUrl := match a.filled? "base-url" with
      | some url => dropFinalSlashes url
      | none => config.baseUrl
    let token := match a.filled? "token" with
      | some token => some token
      | none => config.token
    .ok { config with baseUrl, token }

/-- Compiles a description, deploys the case and saves its configuration. -/
def deployScript (s : Surroundings) (a : Arguments) : Script :=
  match deploymentConfig s a, Config.ofEnvironment s.environment with
  | .error reason, _ => .stop reason
  | .ok _, .error e => .stop (.setting e)
  | .ok config, .ok compilation =>
    readText (a.getD "file" []) fun t =>
      onCompiled (compile compilation (caseOf a) (Logic.parseText t)) fun compiled =>
        let name := a.getD "case-name" []
        let target : DeploymentTarget :=
          ⟨a.getD "app-id" [], a.getD "app-name" [], (a.filled? "case-slug").getD name⟩
        let exchange := deployCase config target name compiled.document compiled.logic s.stamp
        Script.ofExchange (fun
          | .ok answer => .printLine answer.writeIndented (.finish 0)
          | .error e =>
            if e.isReported then .abort ("Deployment failed: " ++ e.message)
            else .stop (.deployment e)) exchange

/-! ## Calling commands -/

/-- Reports a mistake in a command line. -/
def usageScript (c : Command) (e : UsageError) : Script := .notify (c.report e) (.finish 2)

/-- Looks at the values of parameters in order and goes on if all are right. -/
def checkValues (c : Command) (values : List (Text × Text)) (next : Script) :
    List Parameter → Script
  | [] => next
  | p :: rest =>
    let invalid (reason : Text) : Script :=
      usageScript c { message := "Invalid value for " ++ p.label ++ ": " ++ reason }
    match Table.get? p.key values with
    | none =>
      if p.isRequired then usageScript c { message := p.missingMessage }
      else checkValues c values next rest
    | some value =>
      match p.rule with
      | .any => checkValues c values next rest
      | .oneOf words =>
        if value ∈ words then checkValues c values next rest
        else
          invalid (value.quoted ++ " is not one of " ++
            Text.join ", " (words.map Text.quoted) ++ ".")
      | .existingPath =>
        .probe value fun found =>
          if found then checkValues c values next rest
          else invalid ("Path " ++ value.quoted ++ " does not exist.")

/-- Calls a command with some words. -/
def call (c : Command) (body : Arguments → Script) (words : List Text) : Script :=
  match c.parse words {} with
  | .error e => usageScript c e
  | .ok parsed =>
    if parsed.options.any (·.1 = Command.help.key) then .printLine c.usage (.finish 0)
    else
      let values := c.values parsed
      let finish : Script :=
        match c.surplus parsed with
        | [] => body ⟨values⟩
        | words => usageScript c (Command.surplusError words)
      checkValues c values finish (c.inOrder parsed)

/-- The program itself as a command, with commands as its arguments. -/
def mainCommand : Command :=
  { name := programName
    parameters := [{ key := "version", shape := .switch ["--version"] [] }]
    more := ["COMMAND", "[ARGS]..."]
    isMixed := false }

/-- The commands by their words, with what they do. -/
def commands (s : Surroundings) : List (Text × Command × (Arguments → Script)) :=
  [("compile", compileCommand, compileScript s), ("inspect", inspectCommand, inspectScript),
    ("extract", extractCommand, extractScript), ("templates", templatesCommand, templatesScript s),
    ("deploy", deployCommand, deployScript s)]

/-- What a command line makes the program do. -/
def program (s : Surroundings) (words : List Text) : Script :=
  match mainCommand.parse words {} with
  | .error e => usageScript mainCommand e
  | .ok parsed =>
    let isAsked (key : Text) : Bool := parsed.options.any (·.1 = key)
    if isAsked "version" then
      .printLine (programName ++ ", version " ++ version) (.finish 0)
    else if isAsked Command.help.key then .printLine mainCommand.usage (.finish 0)
    else
      match parsed.positional with
      | [] => usageScript mainCommand { message := "Missing command." }
      | word :: rest =>
        match Table.get? word (commands s) with
        | some (c, body) => call c body rest
        | none =>
          let similar := suggestions word ((commands s).map (·.1))
          let unknown : UsageError :=
            { message := "No such command " ++ word.quoted ++ "." ++ offer similar }
          usageScript mainCommand
            (match if Command.isOptionWord word then mainCommand.readWord word else .ok {} with
              | .error e => e
              | .ok _ => unknown)

end CasePlan.CommandLine
