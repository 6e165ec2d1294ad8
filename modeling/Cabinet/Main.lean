import Cabinet.Launcher

/-! The command: reads the files its arguments name, runs and prints what comes of it. -/
namespace Cabinet.Host

/-- The system's number of an error; some of its layers give it with a minus sign. -/
def errorNumber (code : UInt32) : UInt32 :=
  if code < 0x80000000 then code else 0 - code

/-- A failure of the file system, by the number the operating system gives it. -/
def failureOf (error : IO.Error) : ReadFailure :=
  match error with
  | .noFileOrDirectory _ _ _ => .notFound
  | .inappropriateType _ code _ => if errorNumber code = 20 then .notDirectory else .isDirectory
  | .invalidArgument _ code details =>
    if errorNumber code = 36 then .nameTooLong
    else .other s!"{details} (os error {errorNumber code})"
  | .permissionDenied _ code details => .other s!"{details} (os error {errorNumber code})"
  | other => .other other.toString

def read (path : String) : IO (Except ReadFailure ByteArray) := do
  try
    return .ok (← IO.FS.readBinFile path)
  catch error =>
    return .error (failureOf error)

def disk (paths : List String) : IO Disk := do
  let readings ← paths.mapM fun path => do return (path, ← read path)
  return Disk.ofReadings readings

end Cabinet.Host

def main (args : List String) : IO UInt32 := do
  let disk ← Cabinet.Host.disk (Cabinet.Launcher.paths args)
  match Cabinet.Launcher.command disk args with
  | .error _ => return 101
  | .ok result =>
    (← IO.getStdout).putStr result.stdout
    (← IO.getStderr).putStr result.stderr
    return result.exitCode
