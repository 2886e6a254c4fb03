import DigestFinder.Catalogue

/-! The CRC models that are published under a name. -/

namespace DigestFinder

/-- A model without length inclusion under a name. -/
def Catalogue.entry (id : String) (width : Nat) (poly init : UInt64) (refIn refOut : Bool)
    (xorOut check : UInt64) (description : String)
    (valid : Crc.ValidWidth width := by decide) : Entry :=
  ⟨id, .masked width valid poly init refIn refOut xorOut, check, description⟩

/-- The same entry with the message length mixed in. -/
def Entry.withLength (e : Entry) (l : Crc.LengthInclusion) : Entry :=
  { e with model := e.model.withLength l }

namespace Catalogue

/-- Names, parameters, the CRC of `checkInput` and where the model is used. -/
def published : Catalogue where
  entries := [
    entry "CRC-3/GSM" 3 0x3 0x0 false false 0x7 0x4 "Mobile networks",
    entry "CRC-3/ROHC" 3 0x3 0x7 true true 0x0 0x6 "Robust header compression, RFC 3095",
    entry "CRC-4/G-704" 4 0x3 0x0 true true 0x0 0x7 "ITU-T G.704; alias CRC-4/ITU",
    entry "CRC-4/INTERLAKEN" 4 0x3 0xf false false 0xf 0xb "Interlaken protocol",
    entry "CRC-5/EPC-C1G2" 5 0x09 0x09 false false 0x00 0x00 "EPC Gen 2 RFID; alias CRC-5/EPC",
    entry "CRC-5/G-704" 5 0x15 0x00 true true 0x00 0x07 "ITU-T G.704; alias CRC-5/ITU",
    entry "CRC-5/USB" 5 0x05 0x1f true true 0x1f 0x19 "USB token packets",
    entry "CRC-6/G-704" 6 0x03 0x00 true true 0x00 0x06 "ITU-T G.704; alias CRC-6/ITU",
    entry "CRC-7/MMC" 7 0x09 0x00 false false 0x00 0x75
      "MultiMediaCard and SD commands; alias CRC-7",
    entry "CRC-7/ROHC" 7 0x4f 0x7f true true 0x00 0x53 "Robust header compression, RFC 3095",
    entry "CRC-8/AUTOSAR" 8 0x2f 0xff false false 0xff 0xdf "AUTOSAR",
    entry "CRC-8/BLUETOOTH" 8 0xa7 0x00 true true 0x00 0x26 "Bluetooth header error correction",
    entry "CRC-8/CDMA2000" 8 0x9b 0xff false false 0x00 0xda "3GPP2",
    entry "CRC-8/DARC" 8 0x39 0x00 true true 0x00 0x15 "Data Radio Channel",
    entry "CRC-8/DVB-S2" 8 0xd5 0x00 false false 0x00 0xbc "DVB-S2 baseband frames",
    entry "CRC-8/GSM-A" 8 0x1d 0x00 false false 0x00 0x37 "3GPP TS 45.003",
    entry "CRC-8/GSM-B" 8 0x49 0x00 false false 0xff 0x94 "3GPP TS 45.003",
    entry "CRC-8/HITAG" 8 0x1d 0xff false false 0x00 0xb4 "HITAG transponders",
    entry "CRC-8/I-432-1" 8 0x07 0x00 false false 0x55 0xa1
      "ITU-T I.432.1, ATM HEC; alias CRC-8/ITU",
    entry "CRC-8/I-CODE" 8 0x1d 0xfd false false 0x00 0x7e "Philips I-CODE",
    entry "CRC-8/LTE" 8 0x9b 0x00 false false 0x00 0xea "3GPP TS 36.212",
    entry "CRC-8/MAXIM-DOW" 8 0x31 0x00 true true 0x00 0xa1
      "Maxim 1-Wire; alias DOW-CRC, CRC-8/MAXIM",
    entry "CRC-8/MIFARE-MAD" 8 0x1d 0xc7 false false 0x00 0x99 "MIFARE application directory",
    entry "CRC-8/NRSC-5" 8 0x31 0xff false false 0x00 0xf7 "NRSC-5 digital radio",
    entry "CRC-8/OPENSAFETY" 8 0x2f 0x00 false false 0x00 0x3e "openSAFETY",
    entry "CRC-8/ROHC" 8 0x07 0xff true true 0x00 0xd0 "Robust header compression, RFC 3095",
    entry "CRC-8/SAE-J1850" 8 0x1d 0xff false false 0xff 0x4b "SAE J1850 automotive networks",
    entry "CRC-8/SMBUS" 8 0x07 0x00 false false 0x00 0xf4
      "System Management Bus packet error code; alias CRC-8",
    entry "CRC-8/TECH-3250" 8 0x1d 0xff true true 0x00 0x97 "EBU Tech 3250, AES3; alias CRC-8/AES",
    entry "CRC-8/WCDMA" 8 0x9b 0x00 true true 0x00 0x25 "3GPP TS 25.212",
    entry "CRC-10/ATM" 10 0x233 0x000 false false 0x000 0x199
      "ATM OAM cells; alias CRC-10, CRC-10/I-610",
    entry "CRC-11/FLEXRAY" 11 0x385 0x01a false false 0x000 0x5a3 "FlexRay header; alias CRC-11",
    entry "CRC-12/CDMA2000" 12 0xf13 0xfff false false 0x000 0xd4d "3GPP2",
    entry "CRC-12/DECT" 12 0x80f 0x000 false false 0x000 0xf5b "DECT; alias X-CRC-12",
    entry "CRC-12/UMTS" 12 0x80f 0x000 false true 0x000 0xdaf "3GPP TS 25.212; alias CRC-12/3GPP",
    entry "CRC-13/BBC" 13 0x1cf5 0x0000 false false 0x0000 0x04fa "BBC time signal",
    entry "CRC-14/DARC" 14 0x0805 0x0000 true true 0x0000 0x082d "Data Radio Channel",
    entry "CRC-15/CAN" 15 0x4599 0x0000 false false 0x0000 0x059e
      "Controller Area Network; alias CRC-15",
    entry "CRC-16/ARC" 16 0x8005 0x0000 true true 0x0000 0xbb3d "ARC, LHA; alias CRC-16, CRC-IBM",
    entry "CRC-16/CDMA2000" 16 0xc867 0xffff false false 0x0000 0x4c06 "3GPP2",
    entry "CRC-16/CMS" 16 0x8005 0xffff false false 0x0000 0xaee7 "Content management system",
    entry "CRC-16/DDS-110" 16 0x8005 0x800d false false 0x0000 0x9ecf "ELV DDS 110",
    entry "CRC-16/DECT-R" 16 0x0589 0x0000 false false 0x0001 0x007e "DECT R-CRC; alias R-CRC-16",
    entry "CRC-16/DECT-X" 16 0x0589 0x0000 false false 0x0000 0x007f "DECT X-CRC; alias X-CRC-16",
    entry "CRC-16/DNP" 16 0x3d65 0x0000 true true 0xffff 0xea82 "Distributed Network Protocol",
    entry "CRC-16/EN-13757" 16 0x3d65 0x0000 false false 0xffff 0xc2b7 "Wireless M-Bus",
    entry "CRC-16/GENIBUS" 16 0x1021 0xffff false false 0xffff 0xd64e
      "GENIbus; alias CRC-16/EPC, CRC-16/I-CODE",
    entry "CRC-16/GSM" 16 0x1021 0x0000 false false 0xffff 0xce3c "3GPP TS 51.011",
    entry "CRC-16/IBM-3740" 16 0x1021 0xffff false false 0x0000 0x29b1
      "IBM 3740 floppy; alias CRC-16/CCITT-FALSE, CRC-16/AUTOSAR",
    entry "CRC-16/IBM-SDLC" 16 0x1021 0xffff true true 0xffff 0x906e
      "HDLC, X.25; alias CRC-16/ISO-HDLC, CRC-16/X-25, CRC-B",
    entry "CRC-16/ISO-IEC-14443-3-A" 16 0x1021 0xc6c6 true true 0x0000 0xbf05
      "Contactless cards type A; alias CRC-A",
    entry "CRC-16/KERMIT" 16 0x1021 0x0000 true true 0x0000 0x2189
      "Kermit; alias CRC-16/CCITT, CRC-CCITT",
    entry "CRC-16/LJ1200" 16 0x6f63 0x0000 false false 0x0000 0xbdf4 "LoJack 1200",
    entry "CRC-16/M17" 16 0x5935 0xffff false false 0x0000 0x772b "M17 digital radio",
    entry "CRC-16/MAXIM-DOW" 16 0x8005 0x0000 true true 0xffff 0x44c2
      "Maxim 1-Wire; alias CRC-16/MAXIM",
    entry "CRC-16/MCRF4XX" 16 0x1021 0xffff true true 0x0000 0x6f91 "Microchip MCRF4XX RFID",
    entry "CRC-16/MODBUS" 16 0x8005 0xffff true true 0x0000 0x4b37 "Modbus RTU",
    entry "CRC-16/NRSC-5" 16 0x080b 0xffff true true 0x0000 0xa066 "NRSC-5 digital radio",
    entry "CRC-16/OPENSAFETY-A" 16 0x5935 0x0000 false false 0x0000 0x5d38 "openSAFETY",
    entry "CRC-16/OPENSAFETY-B" 16 0x755b 0x0000 false false 0x0000 0x20fe "openSAFETY",
    entry "CRC-16/PROFIBUS" 16 0x1dcf 0xffff false false 0xffff 0xa819
      "PROFIBUS; alias CRC-16/IEC-61158-2",
    entry "CRC-16/RIELLO" 16 0x1021 0xb2aa true true 0x0000 0x63d0 "Riello UPS",
    entry "CRC-16/SPI-FUJITSU" 16 0x1021 0x1d0f false false 0x0000 0xe5cc
      "Fujitsu SPI; alias CRC-16/AUG-CCITT",
    entry "CRC-16/T10-DIF" 16 0x8bb7 0x0000 false false 0x0000 0xd0db "SCSI data integrity field",
    entry "CRC-16/TELEDISK" 16 0xa097 0x0000 false false 0x0000 0x0fb3 "Teledisk disk images",
    entry "CRC-16/TMS37157" 16 0x1021 0x89ec true true 0x0000 0x26b1 "TI TMS37157 transponder",
    entry "CRC-16/UMTS" 16 0x8005 0x0000 false false 0x0000 0xfee8
      "3GPP; alias CRC-16/BUYPASS, CRC-16/VERIFONE",
    entry "CRC-16/USB" 16 0x8005 0xffff true true 0xffff 0xb4c8 "USB data packets",
    entry "CRC-16/XMODEM" 16 0x1021 0x0000 false false 0x0000 0x31c3
      "XMODEM, ZMODEM; alias CRC-16/ACORN, CRC-16/LTE, CRC-16/V-41-MSB",
    entry "CRC-17/CAN-FD" 17 0x1685b 0x00000 false false 0x00000 0x04f03 "CAN FD",
    entry "CRC-21/CAN-FD" 21 0x102899 0x000000 false false 0x000000 0x0ed841 "CAN FD",
    entry "CRC-24/BLE" 24 0x00065b 0x555555 true true 0x000000 0xc25a56 "Bluetooth Low Energy",
    entry "CRC-24/FLEXRAY-A" 24 0x5d6dcb 0xfedcba false false 0x000000 0x7979bd "FlexRay channel A",
    entry "CRC-24/FLEXRAY-B" 24 0x5d6dcb 0xabcdef false false 0x000000 0x1f23b8 "FlexRay channel B",
    entry "CRC-24/INTERLAKEN" 24 0x328b63 0xffffff false false 0xffffff 0xb4f3e6
      "Interlaken protocol",
    entry "CRC-24/LTE-A" 24 0x864cfb 0x000000 false false 0x000000 0xcde703 "3GPP TS 36.212",
    entry "CRC-24/LTE-B" 24 0x800063 0x000000 false false 0x000000 0x23ef52 "3GPP TS 36.212",
    entry "CRC-24/OPENPGP" 24 0x864cfb 0xb704ce false false 0x000000 0x21cf02
      "OpenPGP ASCII armour, RFC 4880; alias CRC-24",
    entry "CRC-24/OS-9" 24 0x800063 0xffffff false false 0xffffff 0x200fa5 "OS-9 modules",
    entry "CRC-30/CDMA" 30 0x2030b9c7 0x3fffffff false false 0x3fffffff 0x04c34abf "3GPP2",
    entry "CRC-31/PHILIPS" 31 0x04c11db7 0x7fffffff false false 0x7fffffff 0x0ce9e46c "Philips",
    entry "CRC-32/AIXM" 32 0x814141ab 0x00000000 false false 0x00000000 0x3010bf7f
      "Aeronautical Information Exchange Model; alias CRC-32Q",
    entry "CRC-32/AUTOSAR" 32 0xf4acfb13 0xffffffff true true 0xffffffff 0x1697d06a "AUTOSAR",
    entry "CRC-32/BASE91-D" 32 0xa833982b 0xffffffff true true 0xffffffff 0x87315576
      "Base91 D; alias CRC-32D",
    entry "CRC-32/BZIP2" 32 0x04c11db7 0xffffffff false false 0xffffffff 0xfc891918
      "bzip2; alias CRC-32/AAL5, CRC-32/DECT-B",
    entry "CRC-32/CD-ROM-EDC" 32 0x8001801b 0x00000000 true true 0x00000000 0x6ec2edc4
      "CD-ROM error detection code",
    entry "CRC-32/CKSUM" 32 0x04c11db7 0x00000000 false false 0xffffffff 0x765e7680
      "POSIX cksum polynomial without the length; alias CRC-32/POSIX",
    entry "CRC-32/ISCSI" 32 0x1edc6f41 0xffffffff true true 0xffffffff 0xe3069283
      "iSCSI, SCTP, ext4; alias CRC-32C, CRC-32/CASTAGNOLI",
    entry "CRC-32/ISO-HDLC" 32 0x04c11db7 0xffffffff true true 0xffffffff 0xcbf43926
      "Ethernet, PKZIP, PNG, zlib; alias CRC-32, CRC-32/ADCCP",
    entry "CRC-32/JAMCRC" 32 0x04c11db7 0xffffffff true true 0x00000000 0x340bc6d9 "JAMCRC",
    entry "CRC-32/MEF" 32 0x741b8cd7 0xffffffff true true 0x00000000 0xd2c22f51
      "Metro Ethernet Forum",
    entry "CRC-32/MPEG-2" 32 0x04c11db7 0xffffffff false false 0x00000000 0x0376e6e7
      "MPEG-2 transport streams",
    entry "CRC-32/XFER" 32 0x000000af 0x00000000 false false 0x00000000 0xbd0be338 "XFER",
    (entry "POSIX-CKSUM" 32 0x04c11db7 0x00000000 false false 0xffffffff 0x377a6011
      "POSIX cksum including the message length").withLength ⟨false, []⟩,
    entry "CRC-40/GSM" 40 0x0004820009 0x0000000000 false false 0xffffffffff 0xd4164fc646
      "3GPP TS 45.003",
    entry "CRC-64/ECMA-182" 64 0x42f0e1eba9ea3693 0x0000000000000000 false false
      0x0000000000000000 0x6c40df5f0b497347
      "ECMA-182; alias CRC-64",
    entry "CRC-64/GO-ISO" 64 0x000000000000001b 0xffffffffffffffff true true
      0xffffffffffffffff 0xb90956c775a41001
      "Go hash/crc64 ISO table",
    entry "CRC-64/MS" 64 0x259c84cba6426349 0xffffffffffffffff true true
      0x0000000000000000 0x75d4b74f024eceea
      "Microsoft",
    entry "CRC-64/NVME" 64 0xad93d23594c93659 0xffffffffffffffff true true
      0xffffffffffffffff 0xae8b14860a799888
      "NVM Express",
    entry "CRC-64/REDIS" 64 0xad93d23594c935a9 0x0000000000000000 true true
      0x0000000000000000 0xe9c6d914c4b8d9ca
      "Redis",
    entry "CRC-64/WE" 64 0x42f0e1eba9ea3693 0xffffffffffffffff false false
      0xffffffffffffffff 0x62ec59e3f1a4f00a
      "Wolfgang Ehrhardt",
    entry "CRC-64/XZ" 64 0x42f0e1eba9ea3693 0xffffffffffffffff true true
      0xffffffffffffffff 0x995dc9bbdf1939fa
      "xz, ECMA-182 reflected; alias CRC-64/GO-ECMA"]

end Catalogue

end DigestFinder
