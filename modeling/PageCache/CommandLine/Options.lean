import PageCache.CommandLine.Number

/-!
# Options

The command line is a list of options in long (`--ops 5`, `--ops=5`) or short form (`-o 5`, `-o5`,
`-o=5`); short flags may be written together. An option that is given on its own takes the next
argument for its value, unless that looks like an option itself. Its value is read when the next
option comes or the line ends: an argument that no option claims is complained about before a
value that does not read.
-/

namespace PageCache.CommandLine

inductive Setting
  | poolSize
  | instances
  | threads
  | ops
  | dataFile
  | debug
  | help
  | version
deriving DecidableEq

namespace Setting

def all : List Setting :=
  [poolSize, instances, threads, ops, dataFile, debug, help, version]

def short : Setting → Char
  | poolSize => 'p'
  | instances => 'n'
  | threads => 't'
  | ops => 'o'
  | dataFile => 'f'
  | debug => 'd'
  | help => 'h'
  | version => 'V'

def long : Setting → String
  | poolSize => "pool-size"
  | instances => "instances"
  | threads => "threads"
  | ops => "ops"
  | dataFile => "data-file"
  | debug => "debug"
  | help => "help"
  | version => "version"

/-- What stands for the value where the option is described; a flag has none. -/
def placeholder? : Setting → Option String
  | poolSize => some "POOL_SIZE"
  | instances => some "INSTANCES"
  | threads => some "THREADS"
  | ops => some "OPS"
  | dataFile => some "DATA_FILE"
  | debug | help | version => none

def purpose : Setting → String
  | poolSize => "Frames per buffer pool instance [default: 64]"
  | instances => "Number of buffer pool instances [default: 4]"
  | threads => "Worker threads [default: 4]"
  | ops => "Operations per worker thread [default: 10000]"
  | dataFile => "Page file; an in-memory disk is used when omitted"
  | debug => "Enable debug logging"
  | help => "Print help"
  | version => "Print version"

/-- How messages name the option. -/
def display (s : Setting) : String :=
  match s.placeholder? with
  | some placeholder => "--" ++ s.long ++ " <" ++ placeholder ++ ">"
  | none => "--" ++ s.long

def ofShort? (c : Char) : Option Setting :=
  all.find? fun s => s.short = c

def ofLong? (name : String) : Option Setting :=
  all.find? fun s => s.long = name

end Setting

/-! ## What is wrong with a command line -/

inductive ValueError
  | number (cause : NumberError)
  /-- Not a number of 32 bits. -/
  | outOfRange (n : Int)
deriving DecidableEq

inductive UsageError
  | unexpected (argument : String)
  | valueMissing (s : Setting)
  | repeated (s : Setting)
  | valueUnneeded (value : String) (s : Setting)
  | invalid (value : String) (s : Setting) (cause : ValueError)
deriving DecidableEq

def ValueError.message : ValueError → String
  | number cause => cause.message
  | outOfRange n => toString n ++ " is not in 0..=4294967295"

def UsageError.message : UsageError → String
  | unexpected argument => "unexpected argument '" ++ argument ++ "' found"
  | valueMissing s => "a value is required for '" ++ s.display ++ "' but none was supplied"
  | repeated s => "the argument '" ++ s.display ++ "' cannot be used multiple times"
  | valueUnneeded value s =>
    "unexpected value '" ++ value ++ "' for '" ++ s.display ++ "' found; no more were expected"
  | invalid value s cause =>
    "invalid value '" ++ value ++ "' for '" ++ s.display ++ "': " ++ cause.message

/-- The same error, with what the line said put through `f`. -/
def UsageError.onText (f : String → String) : UsageError → UsageError
  | unexpected argument => unexpected (f argument)
  | valueMissing s => valueMissing s
  | repeated s => repeated s
  | valueUnneeded value s => valueUnneeded (f value) s
  | invalid value s cause => invalid (f value) s cause

/-- Why the program does not run: it only tells about itself, or it was called wrongly. -/
inductive Stop
  | help
  | version
  | usage (error : UsageError)
deriving DecidableEq

/-! ## Values -/

/-- What the line has set so far. -/
structure Given where
  poolSize : Option Nat
  instances : Option Nat
  threads : Option Nat
  ops : Option Nat
  dataFile : Option String
  debug : Bool
deriving DecidableEq

structure Options where
  poolSize : Nat
  instances : Nat
  threads : Nat
  ops : Nat
  dataFile : Option String
  debug : Bool
deriving DecidableEq

namespace Given

def nothing : Given :=
  ⟨none, none, none, none, none, false⟩

def has (g : Given) : Setting → Bool
  | .poolSize => g.poolSize.isSome
  | .instances => g.instances.isSome
  | .threads => g.threads.isSome
  | .ops => g.ops.isSome
  | .dataFile => g.dataFile.isSome
  | .debug => g.debug
  | .help | .version => false

def options (g : Given) : Options where
  poolSize := g.poolSize.getD 64
  instances := g.instances.getD 4
  threads := g.threads.getD 4
  ops := g.ops.getD 10000
  dataFile := g.dataFile
  debug := g.debug

end Given

/-- A number of 64 bits. -/
def readCount (s : Setting) (value : String) : Except Stop Nat :=
  (readUnsigned (UInt64.size - 1) value).mapError fun e => .usage (.invalid value s (.number e))

/-- A number of 32 bits. One beyond them is quoted as it was written, and told as it was
understood. -/
def readShards (s : Setting) (value : String) : Except Stop Nat :=
  match readSigned value with
  | .error e => .error (.usage (.invalid value s (.number e)))
  | .ok n =>
    if 0 ≤ n ∧ n < UInt32.size then .ok n.toNat
    else .error (.usage (.invalid value s (.outOfRange n)))

/-- Set an option that takes a value. It may be set once. -/
def Given.set (g : Given) (s : Setting) (value : String) : Except Stop Given :=
  if g.has s then .error (.usage (.repeated s))
  else
    match s with
    | .poolSize => (readCount s value).map fun n => { g with poolSize := some n }
    | .instances => (readShards s value).map fun n => { g with instances := some n }
    | .threads => (readCount s value).map fun n => { g with threads := some n }
    | .ops => (readCount s value).map fun n => { g with ops := some n }
    | .dataFile =>
      if value.isEmpty then .error (.usage (.valueMissing s))
      else .ok { g with dataFile := some value }
    | .debug | .help | .version => .ok g

/-- Raise a flag. -/
def Given.raise (g : Given) (s : Setting) : Except Stop Given :=
  if g.has s then .error (.usage (.repeated s))
  else
    match s with
    | .help => .error .help
    | .version => .error .version
    | .debug => .ok { g with debug := true }
    | _ => .ok g

/-! ## Reading the line -/

/-- An option that was given on its own. -/
structure Pending where
  setting : Setting
  /-- The argument after it, once that is known to be its value. -/
  value : Option String
deriving DecidableEq

structure Reading where
  given : Given
  pending : Option Pending
  /-- A double dash has ended the options. -/
  closed : Bool
deriving DecidableEq

namespace Reading

def start : Reading :=
  ⟨.nothing, none, false⟩

/-- Read the value of the option that is pending. -/
def settle (r : Reading) : Except Stop Reading :=
  match r.pending with
  | none => .ok r
  | some ⟨s, none⟩ => .error (.usage (.valueMissing s))
  | some ⟨s, some value⟩ =>
    (r.given.set s value).map fun given => { r with given, pending := none }

/-- An option, with a value if one was attached to it. -/
def option (r : Reading) (s : Setting) (attached : Option String) : Except Stop Reading := do
  let r ← r.settle
  match attached with
  | some value => (r.given.set s value).map fun given => { r with given }
  | none => pure { r with pending := some ⟨s, none⟩ }

def flag (r : Reading) (s : Setting) : Except Stop Reading := do
  let r ← r.settle
  (r.given.raise s).map fun given => { r with given }

/-- The letters after a single dash: flags, up to an option that takes the rest for its value. -/
def shorts : List Char → Reading → Except Stop Reading
  | [], r => .ok r
  | c :: rest, r =>
    match Setting.ofShort? c with
    | none => .error (.usage (.unexpected (String.ofList ['-', c])))
    | some s =>
      match s.placeholder?, rest with
      | some _, [] => r.option s none
      | some _, '=' :: value => r.option s (some (String.ofList value))
      | some _, value => r.option s (some (String.ofList value))
      | none, _ => (r.flag s).bind (shorts rest)

/-- The text after a double dash: a name, and a value if an equals sign follows. -/
def longOption (text : List Char) (r : Reading) : Except Stop Reading :=
  let name := String.ofList (text.takeWhile (· ≠ '='))
  let value : Option String := match text.dropWhile (· ≠ '=') with
    | _ :: value => some (String.ofList value)
    | [] => none
  match Setting.ofLong? name with
  | none => .error (.usage (.unexpected ("--" ++ name)))
  | some s =>
    match s.placeholder?, value with
    | some _, _ => r.option s value
    | none, some value => .error (.usage (.valueUnneeded value s))
    | none, none => r.flag s

/-- An argument that is no option. -/
def plain (argument : String) (r : Reading) : Except Stop Reading :=
  match r.pending with
  | some ⟨s, none⟩ => .ok { r with pending := some ⟨s, some argument⟩ }
  | _ => .error (.usage (.unexpected argument))

def argument (r : Reading) (argument : String) : Except Stop Reading :=
  if r.closed then .error (.usage (.unexpected argument))
  else
    match argument.toList with
    | ['-', '-'] => .ok { r with closed := true }
    | '-' :: '-' :: text => r.longOption text
    | '-' :: c :: rest => r.shorts (c :: rest)
    | _ => r.plain argument

end Reading

def Options.parse (arguments : List String) : Except Stop Options := do
  let r ← arguments.foldlM Reading.argument .start
  let r ← r.settle
  pure r.given.options

end PageCache.CommandLine
