import OpaqueTokens.Cli.Commands
import OpaqueTokens.Crypto.Gcm
import Std.Time.DateTime.Timestamp

/-!
# The command line program

Gathers what a command sees of the machine, runs it, and prints what it says.
-/

namespace OpaqueTokens.Cli

/-- Why a file cannot be read, with the number that the operating system has for it. -/
def fileProblem : IO.Error → String
  | .noFileOrDirectory _ _ _ => "No such file or directory (os error 2)"
  | .permissionDenied _ _ _ => "Permission denied (os error 13)"
  | .inappropriateType _ _ _ => "Is a directory (os error 21)"
  | error => toString error

/-- The text of a file, or why it cannot be read. -/
def readFile (path : String) : IO (Except String String) := do
  try
    let bytes ← IO.FS.readBinFile path
    match Text.ofUtf8? bytes.data.toList with
    | some text => pure (.ok text)
    | none => pure (.error "stream did not contain valid UTF-8")
  catch error => pure (.error (fileProblem error))

/-- This many random bytes. -/
def randomBytes (count : USize) : IO (List UInt8) := do
  pure (← IO.getRandomBytes count).data.toList

/-- What a command sees of the machine, of which only what the command asks for is read. -/
def gatherHost (arguments : List String) : IO Host := do
  let keyId ← IO.getEnv keyIdVariable
  let known := (keyId.map fun value => (keyIdVariable, Text.utf8 value)).toList
  let environment : Environment := fun name => known.lookup name
  let (known, files) ←
    match Invocation.ofArguments environment arguments with
    | .error _ => pure (known, [])
    | .ok invocation =>
      let key ← IO.getEnv invocation.keyEnv
      let known :=
        (key.map fun value => (invocation.keyEnv, Text.utf8 value)).toList ++ known
      match invocation.command.path? with
      | none => pure (known, [])
      | some path => pure (known, [(path, ← readFile path)])
  let now ← Std.Time.Timestamp.now
  let key ← randomBytes 32
  let id ← randomBytes 32
  let nonce ← randomBytes 12
  match Time.Instant.ofNanos? now.toNanosecondsSinceUnixEpoch.val, SealerKey.ofBytes key,
      Nonce.ofBytes? nonce with
  | some clock, .ok freshKey, some nonce =>
    pure {
      environment := fun name => known.lookup name
      fileText := fun path => (files.lookup path).getD (.error "the file was not read")
      clock, freshKey, nonce
      freshId := TokenId.ofEntropy id }
  | _, _, _ => throw (IO.userError "the clock or the random source cannot be used")

end OpaqueTokens.Cli

open OpaqueTokens in
/-- Runs the command of the command line. -/
def main (arguments : List String) : IO UInt32 := do
  let host ← Cli.gatherHost arguments
  let outcome := Cli.run Crypto.Gcm.aead host arguments
  for text in outcome.output do
    IO.println text
  for text in outcome.notices do
    IO.eprintln text
  pure outcome.exitCode.toUInt32
