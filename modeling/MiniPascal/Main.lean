import MiniPascal.Shell

namespace MiniPascal.Main

partial def readLine (input : IO.FS.Stream) (line : ByteArray) : IO ByteArray := do
  let byte ← input.read 1
  if byte.isEmpty then return line
  if byte == ⟨#[10]⟩ then return line ++ byte
  readLine input (line ++ byte)

def leave (x : Shell.Exit) : IO UInt32 := do
  (← IO.getStdout).putStr x.out
  (← IO.getStderr).putStr x.err
  return x.code.toUInt32

partial def converse (o : Shell.Options) (m : Machine) : IO UInt32 := do
  let output ← IO.getStdout
  output.putStr Shell.prompt
  output.flush
  let line ← readLine (← IO.getStdin) .empty
  if line.isEmpty then return 0
  match String.fromUTF8? line with
  | none => leave (Shell.unreadable "input" Shell.notText)
  | some source =>
    let result := Shell.step o m source
    output.putStr result.out
    (← IO.getStderr).putStr result.err
    converse o result.machine

def contents? (path : String) : IO (Option ByteArray) := do
  try return some (← IO.FS.readBinFile path) catch _ => return none

end MiniPascal.Main

open MiniPascal in
def main (arguments : List String) : IO UInt32 := do
  match Shell.Request.parse arguments with
  | .run ⟨none, verbosity, printTree⟩ => Main.converse ⟨none, verbosity, printTree⟩ .initial
  | .run ⟨some path, _, _⟩ =>
    let contents ← Main.contents? path
    Main.leave (Shell.run arguments (fun _ => contents) .empty)
  | _ => Main.leave (Shell.run arguments (fun _ => none) .empty)
