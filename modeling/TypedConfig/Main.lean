import TypedConfig.CommandLine

partial def TypedConfig.readAll (input : IO.FS.Stream) (read : ByteArray) : IO ByteArray := do
  let block ← input.read 65536
  if block.isEmpty then return read
  TypedConfig.readAll input (read ++ block)

def main : IO UInt32 := do
  let outcome := TypedConfig.runCommand (← TypedConfig.readAll (← IO.getStdin) .empty)
  (← IO.getStdout).putStr outcome.stdout
  (← IO.getStderr).putStr outcome.stderr
  return outcome.exitCode.toUInt32
