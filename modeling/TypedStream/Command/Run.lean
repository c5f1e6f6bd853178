import TypedStream.Command.Request
import TypedStream.DataType.Promotion
import TypedStream.Selection
import TypedStream.Table
import TypedStream.Wire.Schema

namespace TypedStream.Command

/-- What a command leaves behind: what it prints and what it logs. It prints nothing if it fails. -/
structure Outcome where
  result : Except Error Text
  log : List Text := []

def line (parts : List Text) : Text := parts.flatten ++ utf8 "\n"

/-- Whether one type promotes to another, and how, or what they have in common. -/
def promotes (source target : DataType) : Text :=
  match source.wideningPath target with
  | some path =>
    line [source.text, utf8 " promotes to ", target.text] ++
      line [utf8 "path: ", Text.join (utf8 " -> ") (path.map DataType.text)]
  | none =>
    line [source.text, utf8 " doesn't promote to ", target.text] ++
      match source.commonType target with
      | some common => line [utf8 "common type: ", common.text]
      | none => []

def runPromotes (source target : Text) : Except Error Text := do
  let s ← (DataType.parse source).mapError fun e => .failure (.type e)
  let t ← (DataType.parse target).mapError fun e => .failure (.type e)
  return promotes s t

/-- The rows for the fields of a stream. -/
def schemaRows (name : Text) (record : DataType) : List (List Text) :=
  record.fields.map fun (field, t) =>
    let schema := Wire.Schema.ofType t
    [name, field, t.text, if schema.isSupported then schema.text else schema.kind.name]

/-- The rows for streams by name, and what is logged until one of them turns out not to be
declared. -/
def collectRows (schemas : List (Text × DataType)) :
    List Text → Except Error (List (List Text)) × List Text
  | [] => (.ok [], [])
  | name :: names =>
    match schemas.lookup name with
    | none => (.error (.unknownStream name), [])
    | some record =>
      match collectRows schemas names with
      | (rows, log) =>
        (rows.map (schemaRows name record ++ ·), Wire.schemaComplaints record ++ log)

def schemaTable (rows : List (List Text)) : Table :=
  { header := [utf8 "stream", utf8 "field", utf8 "type", utf8 "wire"], rows := rows }

def runSchema (c : Config) (names : List Text) : Outcome :=
  match c.schemas Interner.empty with
  | .error f => { result := .error (.failure f) }
  | .ok (schemas, _) =>
    let names := if names.isEmpty then c.streams.map StreamDeclaration.name else names
    match collectRows schemas names with
    | (rows, log) => { result := rows.map fun rows => (schemaTable rows).text, log := log }

/-- The projection of a declared stream to the selected fields. -/
def projection (c : Config) (stream : Text) (selections : List Selection) :
    Except Error Projection := do
  let s ← match c.stream? stream with
    | some s => .ok s
    | none => .error (.missingStream stream)
  let record ← s.schema.mapError .failure
  let strict ← c.strictNulls.mapError .strictNulls
  (Projection.ofSelections record strict selections).mapError .failure

def runProject (c : Config) (stream : Text) (graph : Bool) (arguments : List Text) :
    Except Error Text := do
  let p ← projection c stream (arguments.map Selection.parse)
  let shown := if graph then p.explain?.map Diagram.dot else p.dump?
  match shown with
  | some text => return text
  | none => throw (.failure (.defect .malformedValue))

def functionRow (name : Text) (f : ScalarFunction) : List Text :=
  [name, f.type.text, if f.strict then utf8 "propagated" else utf8 "explicit", f.description]

def functionTable (r : Registry) : Table :=
  { header := [utf8 "name", utf8 "signature", utf8 "nulls", utf8 "description"]
    rows := r.names.flatMap fun name => (r.overloads name).map (functionRow name)
    limit := 48 }

/-- How a configuration is got from its path. -/
abbrev Reader := Text → Except Config.Error Config

namespace Options

def readConfig (o : Options) (read : Reader) : Except Error Config :=
  if o.config.isEmpty then .error .missingConfig
  else (read o.config).mapError .config

/-- Where the log is kept, if it is wanted at all. -/
def logDirectory (o : Options) (read : Reader) (home : Text) : Except Error (Option Text) :=
  if !o.logToFile then .ok none
  else if o.config.isEmpty then .ok (some (Config.defaultLogDirectory home))
  else match (read o.config).bind fun c => c.logDirectory home with
    | .ok path => .ok (some path)
    | .error e => .error (.logDirectory e)

end Options

/-- Runs a command once the log is open. -/
def run (read : Reader) (o : Options) : Verb → Outcome
  | .promotes =>
    match o.arguments with
    | [source, target] => { result := runPromotes source target }
    | arguments => { result := .error (.argumentCount 2 arguments.length) }
  | .schema =>
    match o.readConfig read with
    | .error e => { result := .error e }
    | .ok c => runSchema c o.arguments
  | .project =>
    match o.stream with
    | none => { result := .error (.missingFlag Flag.stream.name) }
    | some stream =>
      { result := (o.readConfig read).bind fun c => runProject c stream o.graph o.arguments }
  | .functions => { result := .ok (functionTable Registry.builtin).text }

/-- The configuration in a file of a disk. A directory can be opened, but not read. -/
def readFrom (d : Disk) : Reader := fun path =>
  match d.find? path with
  | none => .error .unreadable
  | some .directory => .error .malformed
  | some (.file content) => Config.parse content

def openLog (d : Disk) (home : Text) (o : Options) : Except Error Journal := do
  let idle : Journal := { disk := d }
  match ← o.logDirectory (readFrom d) home with
  | none => return idle
  | some directory => (idle.start directory).mapError .journal

/-- A whole run on a disk: opens the log, runs the command, adds to the log and closes it. -/
def execute (d : Disk) (home : Text) (words : List Text) : Journal × Except Error Text :=
  let idle : Journal := { disk := d }
  match Request.parse words with
  | .error e => (idle, .error e)
  | .ok .help => (idle, .ok [])
  | .ok (.script o) =>
    match openLog d home o with
    | .error e => (idle, .error e)
    | .ok journal => (journal.stop, .ok [])
  | .ok (.run verb o) =>
    match openLog d home o with
    | .error e => (idle, .error e)
    | .ok journal =>
      let outcome := run (readFrom journal.disk) o verb
      ((journal.writeAll outcome.log).stop, outcome.result)

end TypedStream.Command
