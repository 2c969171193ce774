import ZoneHistory.Text.Numeral
import ZoneHistory.Timeline

/-!
# The command line

Options have long names, which may be cut short as long as they are unambiguous; a value follows its
option or is attached to it by `=`, or directly to the one-letter name. All other arguments name
sources; they stand together, and behind `--` every argument is one. Where that mark is attached to
an option, it leaves the option blank.
-/
namespace ZoneHistory.CommandLine

inductive OptionName where
  | help
  | inputDir
  | lastYear
  | version
  | outputDir
  | jsonFile
  | verbose
  deriving DecidableEq

def longNames : List (String × OptionName) :=
  [("--help", .help), ("--input_dir", .inputDir), ("--max_year", .lastYear),
   ("--tz_version", .version), ("--output_dir", .outputDir), ("--json_file", .jsonFile),
   ("--verbose", .verbose)]

/-- What a run is asked for; an option that was left blank has no value. -/
structure Options where
  inputDir : Option String := some ""
  sources : List String := []
  lastYear : Option Int := some Timeline.defaultLastYear
  version : Option String := some ""
  outputDir : Option String := some ""
  jsonFile : Option String := some ""
  verbose : Bool := false
  deriving DecidableEq

/-- What an argument is, seen by itself. -/
inductive Token where
  | source (text : String)
  /-- The mark behind which every argument names a source. -/
  | mark
  | option (name : OptionName) (attached : Option String)
  /-- The one-letter name for help with something attached, which is read as further such names. -/
  | helpCluster (attached : List Char)
  | unknown
  | ambiguous
  deriving DecidableEq

/-- The texts before and after the first `=`, if there is one. -/
def splitAtEquals : List Char → List Char × Option (List Char)
  | [] => ([], none)
  | c :: rest =>
    if c = '=' then ([], some rest)
    else (c :: (splitAtEquals rest).1, (splitAtEquals rest).2)

/-- Digits up to the end of a text, which may be followed by a line feed. -/
def digitsToEnd (text : List Char) : Bool :=
  match Text.spanDigits text with
  | (_ :: _, []) => true
  | (_ :: _, ['\n']) => true
  | _ => false

/-- A number with a minus sign is not an option. -/
def isNegativeNumber (behindSign : List Char) : Bool :=
  digitsToEnd behindSign ||
    match Text.spanDigits behindSign with
    | (_, '.' :: rest) => digitsToEnd rest
    | _ => false

/-- An argument that begins with a minus sign and means no option. -/
def Token.ofOther (text : String) (behindSign : List Char) : Token :=
  if isNegativeNumber behindSign || behindSign.contains ' ' then .source text else .unknown

/-- The option that a long name, which may be cut short, stands for. -/
def Token.ofLong (text : String) (behindSign : List Char) : Token :=
  let (name, attached) := splitAtEquals text.toList
  match longNames.filter fun entry => name.isPrefixOf entry.1.toList with
  | [] => ofOther text behindSign
  | [entry] => .option entry.2 (attached.map String.ofList)
  | _ => .ambiguous

def Token.ofArgument (text : String) : Token :=
  match text.toList with
  | ['-', '-'] => .mark
  | '-' :: '-' :: rest => ofLong text ('-' :: rest)
  | ['-', 'h'] => .option .help none
  | '-' :: 'h' :: '=' :: rest => .helpCluster rest
  | '-' :: 'h' :: rest => .helpCluster rest
  | ['-', 'd'] => .option .outputDir none
  | '-' :: 'd' :: '=' :: rest => .option .outputDir (some (String.ofList rest))
  | '-' :: 'd' :: rest => .option .outputDir (some (String.ofList rest))
  | ['-'] => .source text
  | '-' :: rest => ofOther text rest
  | _ => .source text

/-- The tokens of the arguments; behind the mark there are only sources. -/
def tokens : List String → List Token
  | [] => []
  | text :: rest =>
    match Token.ofArgument text with
    | .mark => .mark :: rest.map .source
    | token => token :: tokens rest

/-- Whether what is attached to the one-letter name for help consists of such names: any number of
times help, then the output directory with a value, or one that follows. -/
def clusterIsValid (valueFollows : Bool) : List Char → Bool
  | ['h'] => true
  | 'h' :: rest => clusterIsValid valueFollows rest
  | ['d'] => valueFollows
  | 'd' :: _ => true
  | _ => false

/-- Where the sources stand: still to come, being read, or passed. -/
inductive SourcePlace where
  | ahead
  | here
  | passed
  deriving DecidableEq

/-- What has been read of the arguments. -/
structure Progress where
  options : Options := {}
  place : SourcePlace := .ahead
  /-- Whether there were arguments that belong nowhere. -/
  surplus : Bool := false

inductive Invocation where
  | run (options : Options)
  | help
  /-- There is nothing to read. -/
  | nothingToDo
  | rejected
  deriving DecidableEq

/-- The sources end where an option begins. -/
def SourcePlace.leave : SourcePlace → SourcePlace
  | here => passed
  | place => place

def Progress.addSource (p : Progress) (text : String) : Progress :=
  match p.place with
  | .passed => { p with surplus := true }
  | _ => { p with place := .here, options.sources := p.options.sources ++ [text] }

def Progress.addMark (p : Progress) : Progress :=
  match p.place with
  | .passed => { p with surplus := true }
  | _ => { p with place := .here }

/-- Set an option to a value, unless the value is not one for it. -/
def Options.set? (o : Options) (name : OptionName) (value : String) : Option Options :=
  match name with
  | .inputDir => some { o with inputDir := value }
  | .lastYear => (Text.integer? value).map fun year => { o with lastYear := year }
  | .version => some { o with version := value }
  | .outputDir => some { o with outputDir := value }
  | .jsonFile => some { o with jsonFile := value }
  | .help | .verbose => none

/-- Leave an option blank, if it is one that takes a value. -/
def Options.leaveBlank? (o : Options) : OptionName → Option Options
  | .inputDir => some { o with inputDir := none }
  | .lastYear => some { o with lastYear := none }
  | .version => some { o with version := none }
  | .outputDir => some { o with outputDir := none }
  | .jsonFile => some { o with jsonFile := none }
  | .help | .verbose => none

/-- Set an option to a value attached to it, or leave it blank. -/
def Options.attach? (o : Options) (name : OptionName) (value : String) : Option Options :=
  if value = "--" then o.leaveBlank? name else o.set? name value

/-- What the options ask for when all arguments have been read. -/
def Progress.finish (p : Progress) : Invocation :=
  if p.surplus then .rejected
  else if (p.options.inputDir.getD "").isEmpty && p.options.sources.isEmpty then .nothingToDo
  else .run p.options

/-- Read tokens from left to right. -/
def interpret (p : Progress) : List Token → Invocation
  | [] => p.finish
  | .source text :: rest => interpret (p.addSource text) rest
  | .mark :: rest => interpret p.addMark rest
  | .unknown :: rest => interpret { p with surplus := true, place := p.place.leave } rest
  | .ambiguous :: _ => .rejected
  | .helpCluster attached :: rest =>
    let valueFollows := match rest with
      | .source _ :: _ => true
      | _ => false
    if clusterIsValid valueFollows attached then .help else .rejected
  | .option name (some value) :: rest =>
    match p.options.attach? name value with
    | some options => interpret { p with options, place := p.place.leave } rest
    | none => .rejected
  | .option .help none :: _ => .help
  | .option .verbose none :: rest =>
    interpret { p with options.verbose := true, place := p.place.leave } rest
  | .option name none :: .source value :: rest =>
    match p.options.set? name value with
    | some options => interpret { p with options, place := p.place.leave } rest
    | none => .rejected
  | .option _ none :: _ => .rejected

/-- What the arguments ask for. -/
def parse (arguments : List String) : Invocation :=
  let all := tokens arguments
  if all.contains .ambiguous then .rejected else interpret {} all

def usage : String :=
  "usage: tzcompiler [-h] [--input_dir INPUT_DIR] [--max_year MAX_YEAR]\n" ++
  "                  [--tz_version TZ_VERSION] [--output_dir OUTPUT_DIR]\n" ++
  "                  [--json_file JSON_FILE] [--verbose]\n" ++
  "                  [sources ...]\n"

def nothingToDoText : String := usage ++ "Either --input_dir or sources must be given\n"

def helpText : String :=
  usage ++
  "\nCompile Zone Info.\n\npositional arguments:\n" ++
  "  sources               TZ files to compile, after those in --input_dir\n" ++
  "\noptions:\n" ++
  "  -h, --help            show this help message and exit\n" ++
  "  --input_dir INPUT_DIR\n" ++
  "                        Location of the directory of standard TZ files\n" ++
  "  --max_year MAX_YEAR   Last year of expanded rules (default: 2100)\n" ++
  "  --tz_version TZ_VERSION\n" ++
  "                        Version string of the TZ files\n" ++
  "  --output_dir OUTPUT_DIR, -d OUTPUT_DIR\n" ++
  "                        Location of the output directory\n" ++
  "  --json_file JSON_FILE\n" ++
  "                        Write a JSON summary of the compilation to this file\n" ++
  "  --verbose             Log every compiled zone file\n"

end ZoneHistory.CommandLine
