/-!
# What can go wrong

The reasons for which an operation of the program fails, and the sentence each of them is
reported with.
-/

namespace SourceAtlas

/-- Why the file system refused an operation. -/
inductive FileError where
  /-- There is nothing at the path. -/
  | notFound
  /-- A part of the path that should be a directory is a file. -/
  | notDirectory
  /-- The path is a directory where a file is needed. -/
  | isDirectory
  /-- The path holds the character with code zero. -/
  | zeroInName
  /-- A name of the path, or the path as a whole, is longer than the file system takes. -/
  | nameTooLong
  /-- The file does not hold UTF-8 text. -/
  | notText
  deriving DecidableEq, Repr

/-- The words of the operating system for a refusal. -/
def FileError.message : FileError → String
  | .notFound => "No such file or directory (os error 2)"
  | .notDirectory => "Not a directory (os error 20)"
  | .isDirectory => "Is a directory (os error 21)"
  | .nameTooLong => "File name too long (os error 36)"
  | .zeroInName => "file name contained an unexpected NUL byte"
  | .notText => "stream did not contain valid UTF-8"

/-- Why an analysis failed. -/
inductive Error where
  /-- The source file at `path` could not be read, for the given reason. -/
  | fileRead (path reason : String)
  /-- A source text does not follow the grammar. -/
  | parse (path : Option String) (message : String)
  /-- The seed names nothing that was analysed; some known identities are offered. -/
  | seedNotFound (seed : String) (hints : List String)
  /-- The root is no directory. -/
  | rootNotFound (path : String)
  /-- No parser is known for the file. -/
  | unsupportedLanguage (path : String)
  /-- The grammar of a language could not be set up. -/
  | grammar (language message : String)
  /-- A pattern for references is malformed. -/
  | pattern (message : String)
  /-- The settings are malformed. -/
  | settings (message : String)
  /-- A result could not be written, for the given reason. -/
  | output (reason : String)
  deriving DecidableEq, Repr

namespace Error

/-- The sentence that reports the error. -/
def message : Error → String
  | fileRead path reason => "failed to read " ++ path ++ ": " ++ reason
  | parse none text => "parse error: " ++ text
  | parse (some path) text => "parse error in " ++ path ++ ": " ++ text
  | seedNotFound seed _ => "seed not found: " ++ seed
  | rootNotFound path => "root directory not found: " ++ path
  | unsupportedLanguage path => "unsupported language: " ++ path
  | grammar language text => "failed to load " ++ language ++ " grammar: " ++ text
  | pattern text => "invalid extraction pattern: " ++ text
  | settings text => "config error: " ++ text
  | output reason => "io error: " ++ reason

/-- The reason beneath the error, where the error passes on the word of another system. -/
def reason? : Error → Option String
  | fileRead _ reason => some reason
  | pattern text => some text
  | output reason => some reason
  | _ => none

/-- The error with `path` as the place of a parse error that names none. -/
def atPath (path : String) : Error → Error
  | parse none text => parse (some path) text
  | e => e

/-- The identities offered in place of a missing seed. -/
def hints : Error → List String
  | seedNotFound _ hints => hints
  | _ => []

end Error

/-- A message of at most `max` characters; a longer one is cut there and marked with three
dots. -/
def truncateMessage (message : String) (max : Nat) : String :=
  if max < message.length then
    String.ofList (message.toList.take max) ++ "..."
  else
    message

end SourceAtlas
