import OpaqueTokens.Seal.Key
import OpaqueTokens.TokenType

/-!
# Command lines

A command line names a command, its settings, and its operands. Settings are written as a word
and the word after it, or as one word with an equals sign; flags stand alone, and the ones of one
letter may be joined. What is common to all commands may stand before or after the name of the
command, where the later place counts. The words are read from left to right, and the first one
that cannot be used, or that asks for help, ends the reading.
-/

namespace OpaqueTokens.Cli

/-- Why no command is run. -/
inductive Stop where
  | misuse
  | help
  | version
  deriving DecidableEq, Repr

/-- The settings that take a value. -/
inductive Setting where
  | keyEnv
  | keyId
  | format
  | type
  | clientId
  | subject
  | scope
  | redirectUri
  | codeChallenge
  | codeChallengeMethod
  | config
  deriving DecidableEq, Repr

/-- The flags. -/
inductive Flag where
  | verbose
  | help
  | version
  deriving DecidableEq, Repr

/-- The texts that keys are printed in. -/
inductive KeyFormat where
  | hex
  | base64
  deriving DecidableEq, Repr

/-- The format of a name. -/
def KeyFormat.ofName? : String → Option KeyFormat
  | "hex" => some .hex
  | "base64" => some .base64
  | _ => none

/-- The type of token that a short name stands for on a command line. -/
def tokenType? : String → Option TokenType
  | "code" => some .authorizationCode
  | "access" => some .accessToken
  | "refresh" => some .refreshToken
  | _ => none

namespace Setting

/-- The name of a setting, after its two dashes. -/
def name : Setting → String
  | .keyEnv => "key-env"
  | .keyId => "key-id"
  | .format => "format"
  | .type => "type"
  | .clientId => "client-id"
  | .subject => "subject"
  | .scope => "scope"
  | .redirectUri => "redirect-uri"
  | .codeChallenge => "code-challenge"
  | .codeChallengeMethod => "code-challenge-method"
  | .config => "config"

/-- Whether a setting takes a value. -/
def accepts (setting : Setting) (value : String) : Bool :=
  match setting with
  | .format => (KeyFormat.ofName? value).isSome
  | .type => (tokenType? value).isSome
  | .config => value ≠ ""
  | _ => true

end Setting

namespace Flag

/-- The name of a flag, after its two dashes. -/
def name : Flag → String
  | .verbose => "verbose"
  | .help => "help"
  | .version => "version"

/-- The letter of a flag, after one dash. -/
def letter : Flag → Char
  | .verbose => 'v'
  | .help => 'h'
  | .version => 'V'

end Flag

/-- The names of commands. -/
inductive CommandName where
  | keygen
  | inspect
  | mintCode
  | checkConfig
  deriving DecidableEq, Repr

namespace CommandName

/-- The command of a name. -/
def ofName? : String → Option CommandName
  | "keygen" => some .keygen
  | "inspect" => some .inspect
  | "mint-code" => some .mintCode
  | "check-config" => some .checkConfig
  | _ => none

/-- The settings of a command of its own. -/
def ownSettings : CommandName → List Setting
  | .keygen => [.format]
  | .inspect => [.type]
  | .mintCode =>
    [.clientId, .subject, .scope, .redirectUri, .codeChallenge, .codeChallengeMethod, .config]
  | .checkConfig => []

/-- Whether a command takes an operand, and needs it: a token, or the path of a file. -/
def takesOperand : CommandName → Bool
  | .inspect | .checkConfig => true
  | .keygen | .mintCode => false

/-- Whether a text can be the operand of a command. -/
def acceptsOperand (command : CommandName) (operand : String) : Bool :=
  command = .inspect || operand ≠ ""

end CommandName

/-- A word of a command line by its dashes. -/
inductive Word where
  | plain
  /-- Two dashes alone: all further words are operands. -/
  | terminator
  | letters (chars : List Char)
  | long (name : String) (attached : Option String)
  deriving DecidableEq, Repr

/-- The kind of a word. A single dash is a plain word. -/
def Word.ofText (text : String) : Word :=
  match text.toList with
  | ['-', '-'] => .terminator
  | '-' :: '-' :: rest =>
    match rest.span (· ≠ '=') with
    | (name, []) => .long (String.ofList name) none
    | (name, _ :: value) => .long (String.ofList name) (some (String.ofList value))
  | ['-'] => .plain
  | '-' :: chars => .letters chars
  | _ => .plain

/-- What the words of one place, before or after the name of the command, give. -/
structure Given where
  settings : List (Setting × String) := []
  verbose : Bool := false
  operands : List String := []
  deriving Repr

namespace Given

/-- The value of a setting. -/
def value? (given : Given) (setting : Setting) : Option String :=
  given.settings.lookup setting

/-- Adds a setting, which may be given once. -/
def addSetting (given : Given) (setting : Setting) (value : String) : Except Stop Given :=
  if setting.accepts value ∧ given.value? setting = none then
    .ok { given with settings := given.settings ++ [(setting, value)] }
  else .error .misuse

/-- Adds a flag; verbosity may be asked for once, and the other flags end the reading. -/
def addFlag (given : Given) : Flag → Except Stop Given
  | .verbose => if given.verbose then .error .misuse else .ok { given with verbose := true }
  | .help => .error .help
  | .version => .error .version

/-- Adds flags by their letters. -/
def addLetters (flags : List Flag) (given : Given) (letters : List Char) : Except Stop Given :=
  letters.foldlM (fun given letter =>
    match flags.find? (·.letter = letter) with
    | some flag => given.addFlag flag
    | none => .error .misuse) given

/-- Adds an operand, which may be given once where there may be one. -/
def addOperand (command : Option CommandName) (given : Given) (operand : String) :
    Except Stop Given :=
  match command with
  | some command =>
    if command.takesOperand ∧ command.acceptsOperand operand ∧ given.operands = [] then
      .ok { given with operands := [operand] }
    else .error .misuse
  | none => .error .misuse

end Given

/-- The settings that are common to all commands. -/
def commonSettings : List Setting :=
  [.keyEnv, .keyId]

/-- The settings that may stand in a place: before a command's name only the common ones. -/
def settingsOf : Option CommandName → List Setting
  | none => commonSettings
  | some command => commonSettings ++ command.ownSettings

/-- The flags that may stand in a place. -/
def flagsOf : Option CommandName → List Flag
  | none => [.verbose, .help, .version]
  | some _ => [.verbose, .help]

/-- Reads the words of a place. Before the name of the command reading ends at a plain word,
which is left for the caller with the words after it. -/
def scan (command : Option CommandName) (given : Given) :
    List String → Except Stop (Given × List String)
  | [] => .ok (given, [])
  | text :: rest =>
    match Word.ofText text with
    | .plain =>
      if command.isNone then .ok (given, text :: rest)
      else do scan command (← given.addOperand command text) rest
    | .terminator => do
      let given ← rest.foldlM (Given.addOperand command) given
      pure (given, [])
    | .letters letters => do scan command (← given.addLetters (flagsOf command) letters) rest
    | .long name attached =>
      match (settingsOf command).find? (·.name = name) with
      | some setting =>
        match attached, rest with
        | some value, rest => do scan command (← given.addSetting setting value) rest
        | none, value :: rest =>
          if Word.ofText value = .plain then do
            scan command (← given.addSetting setting value) rest
          else .error .misuse
        | none, [] => .error .misuse
      | none =>
        match (flagsOf command).find? (·.name = name), attached with
        | some flag, none => do scan command (← given.addFlag flag) rest
        | _, _ => .error .misuse

/-- What is asked of a code that is minted by hand. -/
structure MintRequest where
  clientId : String
  subject : String
  scope : String := "openid"
  redirectUri : Option String := none
  codeChallenge : Option String := none
  codeChallengeMethod : Option String := none
  /-- The path of a configuration file. -/
  config : Option String := none
  deriving DecidableEq, Repr

/-- A command with its settings and operands. -/
inductive Command where
  | keygen (format : KeyFormat)
  | inspect (token : String) (type : Option TokenType)
  | mintCode (request : MintRequest)
  | checkConfig (path : String)
  deriving DecidableEq, Repr

/-- The path of the file that a command reads. -/
def Command.path? : Command → Option String
  | .mintCode request => request.config
  | .checkConfig path => some path
  | .keygen _ | .inspect _ _ => none

/-- The command that the words after its name ask for. -/
def Given.command (given : Given) : CommandName → Except Stop Command
  | .keygen =>
    .ok (.keygen ((given.value? .format).bind KeyFormat.ofName? |>.getD .hex))
  | .inspect =>
    match given.operands with
    | token :: _ => .ok (.inspect token ((given.value? .type).bind tokenType?))
    | [] => .error .misuse
  | .mintCode =>
    match given.value? .clientId, given.value? .subject with
    | some clientId, some subject =>
      let request : MintRequest := { clientId, subject }
      let request := {
        request with
        scope := (given.value? .scope).getD request.scope
        redirectUri := given.value? .redirectUri
        codeChallenge := given.value? .codeChallenge
        codeChallengeMethod := given.value? .codeChallengeMethod
        config := given.value? .config }
      if request.codeChallengeMethod.isSome ∧ request.codeChallenge.isNone then .error .misuse
      else .ok (.mintCode request)
    | _, _ => .error .misuse
  | .checkConfig =>
    match given.operands with
    | path :: _ => .ok (.checkConfig path)
    | [] => .error .misuse

/-- A command with what is common to all commands. -/
structure Invocation where
  /-- The environment variable of the sealing key. -/
  keyEnv : String
  keyId : String
  verbose : Bool
  command : Command
  deriving DecidableEq, Repr

/-- The environment variable of the key identifier. -/
def keyIdVariable : String := "SEALGRANT_KEY_ID"

/-- The key identifier: the one of the later place, or else of the earlier place, or else of the
environment variable, which must hold a text wherever it is looked at. -/
def chooseKeyId (environment : Environment) (before after : Given) : Except Stop String :=
  let settings : SealerSettings := {}
  let given := (after.value? .keyId).or (before.value? .keyId)
  match environment keyIdVariable with
  | none => .ok (given.getD settings.keyId)
  | some bytes =>
    match Text.ofUtf8? bytes with
    | some text => .ok (given.getD text)
    | none =>
      match before.value? .keyId, after.value? .keyId with
      | some _, some id => .ok id
      | _, _ => .error .misuse

/-- Reads a command line. -/
def Invocation.ofArguments (environment : Environment) (arguments : List String) :
    Except Stop Invocation := do
  let settings : SealerSettings := {}
  let (before, rest) ← scan none {} arguments
  match rest with
  | [] => throw .misuse
  | name :: rest =>
    match CommandName.ofName? name with
    | some commandName =>
      let (after, _) ← scan (some commandName) {} rest
      let command ← after.command commandName
      pure {
        keyEnv := ((after.value? .keyEnv).or (before.value? .keyEnv)).getD settings.keyEnv
        keyId := ← chooseKeyId environment before after
        verbose := before.verbose || after.verbose
        command }
    | none =>
      -- Help may be asked for as a command, about everything, one command, or itself.
      if name = Flag.help.name ∧ rest.length ≤ 1 ∧
          rest.all fun text => text = Flag.help.name ∨ (CommandName.ofName? text).isSome then
        throw .help
      else throw .misuse

end OpaqueTokens.Cli
