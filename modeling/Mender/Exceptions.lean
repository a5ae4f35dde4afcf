import Mender.Text.Search

/-!
# Exceptions

The classes of exceptions of Python and of the parts of its standard library that programs use every day,
by their full names. A class goes by the name of the module that defines it, which may differ from the one
it is usually imported from.
-/

namespace Mender.Exceptions

def builtin : List String :=
  ["ArithmeticError", "AssertionError", "AttributeError", "BaseException", "BaseExceptionGroup", "BlockingIOError",
    "BrokenPipeError", "BufferError", "BytesWarning", "ChildProcessError", "ConnectionAbortedError", "ConnectionError",
    "ConnectionRefusedError", "ConnectionResetError", "DeprecationWarning", "EOFError", "EncodingWarning", "Exception",
    "ExceptionGroup", "FileExistsError", "FileNotFoundError", "FloatingPointError", "FutureWarning", "GeneratorExit",
    "ImportError", "ImportWarning", "IndentationError", "IndexError", "InterruptedError", "IsADirectoryError",
    "KeyError", "KeyboardInterrupt", "LookupError", "MemoryError", "ModuleNotFoundError", "NameError",
    "NotADirectoryError", "NotImplementedError", "OSError", "OverflowError", "PendingDeprecationWarning",
    "PermissionError", "ProcessLookupError", "RecursionError", "ReferenceError", "ResourceWarning", "RuntimeError",
    "RuntimeWarning", "StopAsyncIteration", "StopIteration", "SyntaxError", "SyntaxWarning", "SystemError",
    "SystemExit", "TabError", "TimeoutError", "TypeError", "UnboundLocalError", "UnicodeDecodeError",
    "UnicodeEncodeError", "UnicodeError", "UnicodeTranslateError", "UnicodeWarning", "UserWarning", "ValueError",
    "Warning", "ZeroDivisionError"]

/-- The classes of the standard library, by the modules that define them. -/
def libraryModules : List (String × List String) :=
  [("_csv", ["Error"]), ("_lzma", ["LZMAError"]), ("_pickle", ["PickleError PicklingError UnpicklingError"]),
    ("_queue", ["Empty"]), ("argparse", ["ArgumentError ArgumentTypeError"]), ("binascii", ["Error Incomplete"]),
    ("calendar", ["IllegalMonthError IllegalWeekdayError"]),
    ("concurrent.futures._base", ["BrokenExecutor CancelledError Error InvalidStateError"]),
    ("concurrent.futures.thread", ["BrokenThreadPool"]),
    ("configparser", ["DuplicateOptionError DuplicateSectionError Error InterpolationDepthError InterpolationError",
      "InterpolationMissingOptionError InterpolationSyntaxError MissingSectionHeaderError NoOptionError",
      "NoSectionError ParsingError"]), ("copy", ["Error"]), ("dataclasses", ["FrozenInstanceError"]),
    ("decimal", [
      "Clamped ConversionSyntax DecimalException DivisionByZero DivisionImpossible DivisionUndefined FloatOperation",
      "Inexact InvalidContext InvalidOperation Overflow Rounded Subnormal Underflow"]),
    ("email.errors", [
      "BoundaryError CharsetError CloseBoundaryNotFoundDefect FirstHeaderLineIsContinuationDefect HeaderDefect",
      "HeaderMissingRequiredValue HeaderParseError HeaderWriteError InvalidBase64CharactersDefect",
      "InvalidBase64LengthDefect InvalidBase64PaddingDefect InvalidDateDefect InvalidHeaderDefect",
      "InvalidMultipartContentTransferEncodingDefect MessageDefect MessageError MessageParseError",
      "MisplacedEnvelopeHeaderDefect MissingHeaderBodySeparatorDefect MultipartConversionError",
      "MultipartInvariantViolationDefect NoBoundaryInMultipartDefect NonASCIILocalPartDefect NonPrintableDefect",
      "ObsoleteHeaderDefect StartBoundaryNotFoundDefect UndecodableBytesDefect"]),
    ("encodings", ["CodecRegistryError"]), ("importlib.metadata", ["PackageNotFoundError"]),
    ("inspect", ["ClassFoundException EndOfBlock"]), ("io", ["UnsupportedOperation"]),
    ("ipaddress", ["AddressValueError NetmaskValueError"]), ("json.decoder", ["JSONDecodeError"]),
    ("locale", ["Error"]),
    ("multiprocessing.context", ["AuthenticationError BufferTooShort ProcessError TimeoutError"]), ("queue", ["Full"]),
    ("re", ["error"]), ("shutil", ["Error ExecError ReadError RegistryError SameFileError SpecialFileError"]),
    ("signal", ["itimer_error"]), ("socket", ["gaierror herror"]), ("struct", ["error"]),
    ("subprocess", ["CalledProcessError SubprocessError TimeoutExpired"]), ("threading", ["BrokenBarrierError"]),
    ("tokenize", ["StopTokenizing TokenError"]), ("zipfile", ["BadZipFile LargeZipFile"]),
    ("zipimport", ["ZipImportError"]), ("zlib", ["error"])]

def library : List String := libraryModules.flatMap fun (module, classes) => (Text.words classes).map (module ++ "." ++ ·)

def names : List String := builtin ++ library

end Mender.Exceptions
