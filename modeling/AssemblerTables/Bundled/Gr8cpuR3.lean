/-
The definition of the GR8CPU, third revision: an eight-bit processor with an
accumulator `A`, the index registers `X` and `Y`, and two bytes of stack pointer.
-/
import AssemblerTables.Instruction

namespace AssemblerTables
namespace Bundled

def gr8cpuR3 : List Instruction :=
  [
    ⟨"BKI", 0x00, []⟩, ⟨"BRK", 0x01, []⟩, ⟨"CALL %", 0x02, [16]⟩, ⟨"RET", 0x03, []⟩,
    ⟨"PSH A", 0x04, []⟩, ⟨"PSH X", 0x05, []⟩, ⟨"PSH Y", 0x06, []⟩, ⟨"PSH %", 0x07, [8]⟩,
    ⟨"PSH [%]", 0x08, [16]⟩, ⟨"PUL A", 0x09, []⟩, ⟨"PUL X", 0x0A, []⟩, ⟨"PUL Y", 0x0B, []⟩,
    ⟨"POP", 0x0C, []⟩, ⟨"PUL [%]", 0x0D, [16]⟩, ⟨"JMP %", 0x0E, [16]⟩, ⟨"BEQ %", 0x0F, [16]⟩,
    ⟨"BNE %", 0x10, [16]⟩, ⟨"BGT %", 0x11, [16]⟩, ⟨"BLE %", 0x12, [16]⟩, ⟨"BLT %", 0x13, [16]⟩,
    ⟨"BGE %", 0x14, [16]⟩, ⟨"BCS %", 0x15, [16]⟩, ⟨"BCC %", 0x16, [16]⟩, ⟨"MOV A, X", 0x17, []⟩,
    ⟨"MOV A, Y", 0x18, []⟩, ⟨"MOV X, A", 0x19, []⟩, ⟨"MOV X, Y", 0x1A, []⟩,
    ⟨"MOV Y, A", 0x1B, []⟩, ⟨"MOV Y, X", 0x1C, []⟩, ⟨"MOV A, %", 0x1D, [8]⟩,
    ⟨"MOV X, %", 0x1E, [8]⟩, ⟨"MOV Y, %", 0x1F, [8]⟩, ⟨"MOV A, [%]", 0x20, [16]⟩,
    ⟨"MOV X, [%]", 0x21, [16]⟩, ⟨"MOV Y, [%]", 0x22, [16]⟩, ⟨"MOV A, X[%]", 0x23, [16]⟩,
    ⟨"MOV A, Y[%]", 0x24, [16]⟩, ⟨"MOV A, (%)", 0x25, [16]⟩, ⟨"MOV A, X(%)Y", 0x26, [16]⟩,
    ⟨"MOV A, X(%)", 0x27, [16]⟩, ⟨"MOV A, (%)Y", 0x28, [16]⟩, ⟨"MOV [%], A", 0x29, [16]⟩,
    ⟨"MOV [%], X", 0x2A, [16]⟩, ⟨"MOV [%], Y", 0x2B, [16]⟩, ⟨"MOV X[%], A", 0x2C, [16]⟩,
    ⟨"MOV Y[%], A", 0x2D, [16]⟩, ⟨"MOV (%), A", 0x2E, [16]⟩, ⟨"MOV X(%)Y, A", 0x2F, [16]⟩,
    ⟨"MOV X(%), A", 0x30, [16]⟩, ⟨"MOV (%)Y, A", 0x31, [16]⟩, ⟨"ADD A, X", 0x32, []⟩,
    ⟨"ADD A, Y", 0x33, []⟩, ⟨"SUB A, X", 0x34, []⟩, ⟨"SUB A, Y", 0x35, []⟩,
    ⟨"CMP A, X", 0x36, []⟩, ⟨"CMP A, Y", 0x37, []⟩, ⟨"ADD A, %", 0x38, [8]⟩,
    ⟨"ADD A, [%]", 0x39, [16]⟩, ⟨"SUB A, %", 0x3A, [8]⟩, ⟨"SUB A, [%]", 0x3B, [16]⟩,
    ⟨"CMP A, %", 0x3C, [8]⟩, ⟨"CMP A, [%]", 0x3D, [16]⟩, ⟨"INC A", 0x3E, []⟩,
    ⟨"INC [%]", 0x3F, [16]⟩, ⟨"DEC A", 0x40, []⟩, ⟨"DEC [%]", 0x41, [16]⟩,
    ⟨"SHL [%]", 0x42, [16]⟩, ⟨"SHR [%]", 0x43, [16]⟩, ⟨"ADDC A, %", 0x44, [8]⟩,
    ⟨"ADDC A, [%]", 0x45, [16]⟩, ⟨"SUBC A, %", 0x46, [8]⟩, ⟨"SUBC A, [%]", 0x47, [16]⟩,
    ⟨"CMPC A, %", 0x48, [8]⟩, ⟨"CMPC A, [%]", 0x49, [16]⟩, ⟨"INCC A", 0x4A, []⟩,
    ⟨"INCC [%]", 0x4B, [16]⟩, ⟨"DECC A", 0x4C, []⟩, ⟨"DECC [%]", 0x4D, [16]⟩,
    ⟨"SHLC [%]", 0x4E, [16]⟩, ⟨"SHRC [%]", 0x4F, [16]⟩, ⟨"ROL [%]", 0x50, [16]⟩,
    ⟨"ROR [%]", 0x51, [16]⟩, ⟨"AND A, %", 0x52, [8]⟩, ⟨"AND A, [%]", 0x53, [16]⟩,
    ⟨"OR A, %", 0x54, [8]⟩, ⟨"OR A, [%]", 0x55, [16]⟩, ⟨"XOR A, %", 0x56, [8]⟩,
    ⟨"XOR A, [%]", 0x57, [16]⟩, ⟨"SHL A", 0x58, []⟩, ⟨"SHR A", 0x59, []⟩, ⟨"ROL A", 0x5A, []⟩,
    ⟨"ROR A", 0x5B, []⟩, ⟨"ADD X, %", 0x5C, [8]⟩, ⟨"ADD X, [%]", 0x5D, [16]⟩,
    ⟨"SUB X, %", 0x5E, [8]⟩, ⟨"SUB X, [%]", 0x5F, [16]⟩, ⟨"CMP X, %", 0x60, [8]⟩,
    ⟨"CMP X, [%]", 0x61, [16]⟩, ⟨"INC X", 0x62, []⟩, ⟨"DEC X", 0x63, []⟩,
    ⟨"ADD Y, %", 0x64, [8]⟩, ⟨"ADD Y, [%]", 0x65, [16]⟩, ⟨"SUB Y, %", 0x66, [8]⟩,
    ⟨"SUB Y, [%]", 0x67, [16]⟩, ⟨"CMP Y, %", 0x68, [8]⟩, ⟨"CMP Y, [%]", 0x69, [16]⟩,
    ⟨"INC Y", 0x6A, []⟩, ⟨"DEC Y", 0x6B, []⟩, ⟨"CALL (%)", 0x6C, [16]⟩, ⟨"JMP (%)", 0x6D, [16]⟩,
    ⟨"MOV A, STL", 0x6E, []⟩, ⟨"MOV A, STH", 0x6F, []⟩, ⟨"MOV STL, A", 0x70, []⟩,
    ⟨"MOV STH, A", 0x71, []⟩, ⟨"MOV F, A", 0x72, []⟩, ⟨"MOV A, F", 0x73, []⟩, ⟨"RTI", 0x74, []⟩,
    ⟨"JMPT X[%]", 0x75, [16]⟩, ⟨"CALT X[%]", 0x76, [16]⟩, ⟨"SIRQ", 0x79, []⟩, ⟨"CIRQ", 0x7A, []⟩,
    ⟨"GPTR [%]", 0x7B, [16]⟩, ⟨"VIRQ %", 0x7C, [16]⟩, ⟨"VNMI %", 0x7D, [16]⟩,
    ⟨"VST %", 0x7E, [8]⟩, ⟨"HLT", 0x7F, []⟩
  ]

end Bundled
end AssemblerTables
