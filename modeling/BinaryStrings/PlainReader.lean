import BinaryStrings.Image.Open
import BinaryStrings.PlainReader.Elf
import BinaryStrings.PlainReader.MachO
import BinaryStrings.PlainReader.Pe

/-!
# Plain readers

The libraries that read executables and the names of characters are not part of the program: what is
proved about it holds for all of them.  Readers for plain files stand in for the libraries where the program
is run, and only characters of ASCII have names there.
-/

namespace BinaryStrings.Readers

/-- Readers for plain files; those for ELF and Mach-O files may be missing. -/
def plain (elf machO : Bool) : Readers where
  elf := if elf then some PlainReader.Elf.library else none
  pe := PlainReader.Pe.library
  machO := if machO then some PlainReader.MachO.library else none
  characters := .ascii

/-- Readers for plain files of all formats. -/
def all : Readers := plain true true

end BinaryStrings.Readers
