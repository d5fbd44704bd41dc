import NestedRules.Dump.Text

namespace NestedRules.Dump

inductive FileError
  | notFound
  | notText
  | dump (why : DumpError)

def fileBytes (r : Rule) : ByteArray := r.pretty.toUTF8

def ofFile (bytes? : Option ByteArray) : Except FileError Rule :=
  match bytes? with
  | none => .error .notFound
  | some bytes =>
    match String.fromUTF8? bytes with
    | none => .error .notText
    | some text => (parse text).mapError .dump

end NestedRules.Dump
